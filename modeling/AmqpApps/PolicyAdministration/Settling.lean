import AmqpApps.Foundation.Runs
import AmqpApps.PolicyAdministration.EndToEnd
import Mathlib.Data.Fintype.EquivFin
import Mathlib.Data.Set.Finite.Basic

/-! # The modules come to rest

Callers of `submit` bring work in, and so does a record or a message that is sent again.
Each of them can make the modules take no more than so many steps, however the handlers
fail.
-/

namespace AmqpApps.PolicyAdministration

namespace Step

def own : Step → Bool
  | submit _ | relayAgain _ | duplicate _ => false
  | commit _ | rollback _ | relay _ | deliver .. | publish _ | return_ _ | fail _ | bill _ => true

end Step

/-! ## What a message is worth -/

def ChargeAwait.work : ChargeAwait → Nat
  | claim => 4
  | publish false => 3
  | publish true => 2
  | confirmation | release => 1

def Message.work : Message → Nat
  | submitted _ => 20
  | register _ => 17
  | price _ => 14
  | decide _ => 11
  | accepted _ => 8
  | issued .. => 5

def Stage.work (stage : Stage) : Nat :=
  if stage.out then 1 else 2 + (stage.message.next.map Message.work).sum

/-- The commit, the relay's publish, and what the record leads to. -/
def Write.work (write : Write) : Nat := 2 + write.record.work

private theorem work_decide (priced : Priced) :
    Stage.work ⟨.decide priced, false⟩ < (Message.decide priced).work := by
  cases verdict : decideOn priced <;> simp [Stage.work, Message.next, verdict, Message.work]

private theorem work_message_le (message : Message) : message.work ≤ 20 := by
  cases message <;> simp [Message.work]

namespace Billing

variable {state : Billing} {call : Charge}

def work (state : Billing) : Nat := (state.calls.map fun call => call.await.work).sum

private theorem work_goOn {await : ChargeAwait} (member : call ∈ state.calls)
    (less : await.work < call.await.work) : (state.goOn call await).work < state.work := by
  have parts := sum_erase (fun call : Charge => call.await.work) member
  simp only [work, goOn, Multiset.map_cons, Multiset.sum_cons]
  omega

private theorem work_leave (member : call ∈ state.calls) :
    (state.leave call).work < state.work := by
  have parts := sum_erase (fun call : Charge => call.await.work) member
  have positive : 0 < call.await.work := by
    cases call.await with
    | publish out => cases out <;> decide
    | _ => decide
  simp only [work, leave]
  omega

private theorem work_step {action : BillingAction} (enabled : state.Enabled action)
    (internal : action.delivers = false) : (state.perform action).work < state.work := by
  cases action with
  | deliver messageId policy => cases internal
  | claim call =>
      have less : (ChargeAwait.publish false).work < call.await.work := by
        rw [enabled.2]
        decide
      simp only [perform]
      split
      · have member : call ∈ ((state.mark call.messageId (some .claimed)).charge call).calls :=
          enabled.1
        exact work_goOn member less
      · exact work_leave enabled.1
  | publish call =>
      have less : (ChargeAwait.publish true).work < call.await.work := by
        rw [enabled.2]
        decide
      exact @work_goOn { state with published := state.published ++ [premiumCharged call.policy] }
        _ _ enabled.1 less
  | sent call =>
      have less : ChargeAwait.confirmation.work < call.await.work := by
        rw [enabled.2]
        decide
      exact work_goOn enabled.1 less
  | raise call =>
      have less : ChargeAwait.release.work < call.await.work := by
        rcases enabled.2 with before | after
        · rw [before]
          decide
        · rw [after]
          decide
      exact @work_goOn { state with history := { state.history with
        raised := state.history.raised ++ [call.messageId] } } _ _ enabled.1 less
  | confirm call => exact @work_leave (state.mark call.messageId (some .confirmed)) _ enabled.1
  | release call => exact @work_leave (state.mark call.messageId none) _ enabled.1
  | die call => exact work_leave enabled

end Billing

namespace Application

variable {state : Application}

def work (state : Application) : Nat :=
  (state.pending.map fun record => record.work + 1).sum + (state.queues.map Message.work).sum +
    (state.writes.map Write.work).sum + (state.stages.map Stage.work).sum + state.billing.work

private theorem work_enqueue (state : Application) (messages : List Message) :
    (state.enqueue messages).work = state.work + (messages.map Message.work).sum := by
  simp only [work, enqueue, Multiset.map_add, Multiset.sum_add, Multiset.map_coe,
    Multiset.sum_coe]
  omega

private theorem work_handle (state : Application) (policyId messageId : String)
    (message : Message) :
    (state.handle policyId messageId message).work < state.work + message.work := by
  cases message with
  | accepted event =>
      simp only [handle, work, Multiset.map_cons, Multiset.sum_cons, Write.work, Write.record,
        Message.work]
      omega
  | issued envelopeId event =>
      simp only [handle, work, Billing.work, Billing.perform, Multiset.map_cons,
        Multiset.sum_cons, ChargeAwait.work, Message.work]
      omega
  | decide priced =>
      have less := work_decide priced
      simp only [handle, work, Multiset.map_cons, Multiset.sum_cons]
      omega
  | _ =>
      simp only [handle, work, Multiset.map_cons, Multiset.sum_cons, Stage.work, Message.next,
        Message.work, List.map_singleton, List.sum_singleton, Bool.false_eq_true, if_false]
      omega

/-- Every step of the modules' own leaves less work. -/
theorem work_step {step : Step} (own : step.own = true) (enabled : state.Enabled step) :
    (state.perform step).work < state.work := by
  cases step with
  | submit row => cases own
  | relayAgain record => cases own
  | duplicate message => cases own
  | commit write =>
      have parts := sum_erase Write.work enabled.1
      cases write <;>
        simp only [perform, insert, work, Multiset.map_cons, Multiset.sum_cons, Write.work]
          at parts ⊢ <;>
        omega
  | rollback write =>
      have member : write ∈ state.writes := enabled
      have parts := sum_erase Write.work member
      simp only [perform, work, Write.work] at parts ⊢
      omega
  | relay record =>
      have member : record ∈ state.pending := enabled
      have parts := sum_erase (fun record : Message => record.work + 1) member
      simp only [perform, enqueue, work, Multiset.map_add, Multiset.sum_add, Multiset.map_coe,
        Multiset.sum_coe, List.map_singleton, List.sum_singleton]
      omega
  | deliver message policyId messageId =>
      have member : message ∈ state.queues := enabled
      have parts := sum_erase Message.work member
      have taken : work { state with queues := state.queues.erase message } + message.work =
          state.work := by
        simp only [work]
        omega
      rw [← taken]
      exact work_handle _ policyId messageId message
  | publish stage =>
      rcases stage with ⟨message, out⟩
      rcases enabled with ⟨member, pending⟩
      cases pending
      have parts := sum_erase Stage.work member
      simp only [perform, enqueue, work, Multiset.map_add, Multiset.sum_add, Multiset.map_coe,
        Multiset.sum_coe, Multiset.map_cons, Multiset.sum_cons, Stage.work, if_true,
        Bool.false_eq_true, if_false] at parts ⊢
      omega
  | return_ stage =>
      have parts := sum_erase Stage.work enabled.1
      have mine : stage.work = 1 := if_pos enabled.2
      rw [perform_return]
      simp only [work]
      omega
  | fail stage =>
      have member : stage ∈ state.stages := enabled
      have parts := sum_erase Stage.work member
      have positive : 0 < stage.work := by
        rw [Stage.work]
        split <;> omega
      simp only [perform, work]
      omega
  | bill action =>
      have less := Billing.work_step enabled.1 enabled.2
      simp only [perform, work]
      omega

theorem work_given {step : Step} (given : step.own = false) :
    (state.perform step).work ≤ state.work + 22 := by
  cases step with
  | submit row =>
      simp only [perform, work, Multiset.map_cons, Multiset.sum_cons, Write.work, Write.record,
        Message.work]
      omega
  | relayAgain record =>
      have bound := work_message_le record
      rw [perform, work_enqueue, List.map_singleton, List.sum_singleton]
      omega
  | duplicate message =>
      have bound := work_message_le message
      rw [perform, work_enqueue, List.map_singleton, List.sum_singleton]
      omega
  | _ => cases given

/-! ## At rest -/

/-- Nothing is waiting to be sent or taken, and nobody is at work. -/
structure AtRest (state : Application) : Prop where
  pending : state.pending = 0
  queues : state.queues = 0
  writes : state.writes = 0
  stages : state.stages = 0
  calls : state.billing.calls = 0

theorem AtRest.quiet (rest : state.AtRest) : state.Quiet where
  pending := rest.pending
  queues := rest.queues
  stages := rest.stages
  writes := by simp [rest.writes]
  calls := rest.calls

/-- Among the steps of one's own there is one for everything that is waiting. -/
structure Attends (Own : Application → Step → Prop) (state : Application) : Prop where
  relay : ∀ record, Own state (.relay record)
  deliver : ∀ message, ∃ policyId messageId, Own state (.deliver message policyId messageId)
  write : ∀ write ∈ state.writes, ∃ step, Own state step ∧ state.Enabled step
  publish : ∀ stage, Own state (.publish stage)
  return_ : ∀ stage, Own state (.return_ stage)
  bill : ∀ action, Smoothly state.billing action → Own state (.bill action)

theorem Attends.atRest {Own : Application → Step → Prop} (attends : Attends Own state)
    (still : application.Still Own state) : state.AtRest := by
  have cannot : ∀ step, Own state step → ¬state.Enabled step := still
  have billing : ∀ action, Smoothly state.billing action → action.delivers = false →
      ¬state.billing.Enabled action := by
    intro action smoothly internal enabled
    exact cannot (.bill action) (attends.bill action smoothly) ⟨enabled, internal⟩
  constructor
  · apply Multiset.eq_zero_of_forall_notMem
    intro record member
    exact cannot _ (attends.relay record) member
  · apply Multiset.eq_zero_of_forall_notMem
    intro message member
    rcases attends.deliver message with ⟨policyId, messageId, own⟩
    exact cannot _ own member
  · apply Multiset.eq_zero_of_forall_notMem
    intro write member
    rcases attends.write write member with ⟨step, own, enabled⟩
    exact cannot step own enabled
  · apply Multiset.eq_zero_of_forall_notMem
    rintro ⟨message, out⟩ member
    cases out with
    | false => exact cannot _ (attends.publish _) ⟨member, rfl⟩
    | true => exact cannot _ (attends.return_ _) ⟨member, rfl⟩
  · apply Multiset.eq_zero_of_forall_notMem
    rintro ⟨messageId, policy, await⟩ member
    cases await with
    | claim => exact billing (.claim _) trivial rfl ⟨member, rfl⟩
    | publish out =>
        cases out with
        | false => exact billing (.publish _) trivial rfl ⟨member, rfl⟩
        | true => exact billing (.sent _) trivial rfl ⟨member, rfl⟩
    | confirmation => exact billing (.confirm _) trivial rfl ⟨member, rfl⟩
    | release => exact billing (.release _) trivial rfl ⟨member, rfl⟩

theorem attends_byItself (state : Application) :
    Attends (TransitionSystem.byItself (·.own = true)) state where
  relay _ := rfl
  deliver _ := ⟨"", "", rfl⟩
  write write member := ⟨.rollback write, rfl, member⟩
  publish _ := rfl
  return_ _ := rfl
  bill _ _ := rfl

private theorem runsDown : application.RunsDown (TransitionSystem.byItself (·.own = true))
    (fun _ => True) work where
  kept _ _ _ _ _ := trivial
  lighter _ _ _ own enabled := work_step own enabled

end Application

/-- The steps that the modules have taken and those that they can still take are at most
twenty-two for each that came from outside. -/
theorem work_le_given {Allowed : Application → Step → Prop} {actions : List Step}
    {state : Application} (ran : application.Ran Allowed actions state) :
    actions.countP Step.own + state.work ≤ 22 * actions.countP (fun step => !step.own) := by
  have bound := ran.taken_le Step.own (fun step => !step.own) Application.work 0 22
    (by
      rintro _ rfl
      simp [Application.initial, Application.work, Billing.initial, Billing.work])
    (fun state step _ own enabled => Application.work_step own enabled)
    (fun state step given _ => by
      rw [given]
      exact Application.work_given given)
  omega

/-- Left to themselves the modules come to rest, whatever fails on the way: over a whole run
they take at most twenty-two steps for each submission and each message that is sent once
more, and only where nothing is left to be sent, taken, written or charged for can they take
no more. -/
theorem modules_settle {Allowed : Application → Step → Prop} {actions : List Step}
    {state : Application} (ran : application.Ran Allowed actions state) :
    (∀ more last, application.Leads (TransitionSystem.byItself (·.own = true)) state more last →
      actions.countP Step.own + more.length ≤ 22 * actions.countP (fun step => !step.own) ∧
      (application.Still (TransitionSystem.byItself (·.own = true)) last → last.AtRest)) ∧
    ∃ more last,
      application.Leads (TransitionSystem.byItself (·.own = true)) state more last ∧
        last.AtRest := by
  constructor
  · intro more last path
    have bound := work_le_given ran
    have taken := Application.runsDown.length_le path trivial
    exact ⟨by omega, last.attends_byItself.atRest⟩
  · have settles : ∃ more last, application.Leads
        (TransitionSystem.byItself (·.own = true)) state more last ∧ True ∧
          application.Still (TransitionSystem.byItself (·.own = true)) last :=
      Application.runsDown.settles trivial
    rcases settles with ⟨more, last, path, -, still⟩
    exact ⟨more, last, path, last.attends_byItself.atRest still⟩

/-- A stage dies, and its message is handed out again. -/
theorem handed_out_again_settles : ∃ state : Application,
    (∀ more last, application.Leads (TransitionSystem.byItself (·.own = true)) state more last →
      4 + more.length ≤ 44) ∧
    ∃ more last,
      application.Leads (TransitionSystem.byItself (·.own = true)) state more last ∧
        last.AtRest := by
  have settles := modules_settle (.of_isSome_run application TransitionSystem.anyStep rfl
    [.submit applicant, .commit (.submit applicant), .relay (.submitted submission),
      .deliver (.submitted submission) "" "", .fail ⟨.submitted submission, false⟩,
      .duplicate (.submitted submission)]
    (by decide +kernel))
  exact ⟨_, fun more last path => (settles.1 more last path).1, settles.2⟩

/-! ## Without faults -/

def Write.policyIds : Write → Multiset String
  | issue _ policyId _ => {policyId}
  | submit _ => 0

def Application.policyIds (state : Application) : Multiset String :=
  (Multiset.ofList state.policies).map PolicyRow.id + state.writes.bind Write.policyIds

/-- Nothing fails, every premium fits its column, and each policy is given an id of its own. -/
def Orderly (state : Application) (step : Step) : Prop :=
  Faultless state step ∧
    match step with
    | .submit row => row.Payable
    | .deliver (.accepted _) policyId _ => policyId ∉ state.policyIds
    | _ => True

instance (state : Application) (step : Step) : Decidable (Orderly state step) := by
  unfold Orderly
  split <;> infer_instance

def Working (state : Application) (step : Step) : Prop :=
  step.own = true ∧ Orderly state step

namespace Application

variable {state : Application}

private theorem policyIds_nodup_step {step : Step} (orderly : Orderly state step)
    (enabled : state.Enabled step) (distinct : state.policyIds.Nodup) :
    (state.perform step).policyIds.Nodup := by
  cases step with
  | submit row => simpa [policyIds, perform, Write.policyIds] using distinct
  | commit write =>
      rw [policyIds, bind_erase Write.policyIds enabled.1] at distinct
      cases write with
      | submit row => simpa [policyIds, perform, insert, Write.policyIds] using distinct
      | issue event policyId messageId =>
          have drawn : (state.perform (.commit (.issue event policyId messageId))).policyIds =
              (Multiset.ofList state.policies).map PolicyRow.id +
                (Write.policyIds (.issue event policyId messageId) +
                  (state.writes.erase (.issue event policyId messageId)).bind
                    Write.policyIds) := by
            simp only [policyIds, perform, insert, Write.policyIds, ← Multiset.coe_add,
              Multiset.map_add, add_assoc]
            rfl
          rw [drawn]
          exact distinct
  | rollback write =>
      rw [policyIds, bind_erase Write.policyIds enabled] at distinct
      refine Multiset.nodup_of_le ?_ distinct
      exact add_le_add_right (Multiset.le_add_left _ _) _
  | deliver message policyId messageId =>
      cases message with
      | accepted event =>
          have unused : policyId ∉ state.policyIds := orderly.2
          have drawn : (state.perform (.deliver (.accepted event) policyId messageId)).policyIds =
              policyId ::ₘ state.policyIds := by
            simp only [policyIds, perform, handle, Multiset.cons_bind, Write.policyIds]
            rw [← Multiset.singleton_add]
            abel
          rw [drawn]
          exact Multiset.nodup_cons.mpr ⟨unused, distinct⟩
      | _ => exact distinct
  | return_ stage =>
      rw [perform_return]
      exact distinct
  | _ => exact distinct

private theorem policyIds_nodup (reached : application.Reached Orderly state) :
    state.policyIds.Nodup := by
  apply reached.invariant fun state => state.policyIds.Nodup
  · intro state first
    cases first
    exact Multiset.nodup_zero
  · intro state step distinct orderly enabled
    exact policyIds_nodup_step orderly enabled distinct

private theorem seen_finite {Allowed : Application → Step → Prop}
    (reached : application.Reached Allowed state) :
    {messageId | state.billing.seen messageId ≠ none}.Finite := by
  have marked : ∀ (billing : Billing) (messageId : String) (mark : Option Seen),
      {other | billing.seen other ≠ none}.Finite →
        {other | (billing.mark messageId mark).seen other ≠ none}.Finite := by
    intro billing messageId mark finite
    refine (finite.insert messageId).subset ?_
    intro other known
    by_cases same : other = messageId
    · exact .inl same
    · refine .inr ?_
      simpa [Billing.mark, Function.update_of_ne same] using known
  apply reached.invariant fun state => {messageId | state.billing.seen messageId ≠ none}.Finite
  · intro state first
    cases first
    simp only [Application.initial, Billing.initial, ne_eq, not_true_eq_false, Set.ofPred_false]
    exact Set.finite_empty
  · intro state step finite _ _
    by_cases outside : ∀ action, step ≠ .bill action
    · change {messageId | (state.perform step).billing.seen messageId ≠ none}.Finite
      rw [seen_kept outside]
      exact finite
    · simp only [not_forall, not_not] at outside
      rcases outside with ⟨action, bills⟩
      subst bills
      cases action with
      | claim call =>
          cases seen : state.billing.seen call.messageId with
          | none =>
              have later : (state.perform (.bill (.claim call))).billing.seen =
                  (state.billing.mark call.messageId (some .claimed)).seen := by
                simp only [perform, Billing.perform, seen]
                rfl
              change {messageId | (state.perform _).billing.seen messageId ≠ none}.Finite
              rw [later]
              exact marked state.billing call.messageId (some .claimed) finite
          | some mark =>
              have later : (state.perform (.bill (.claim call))).billing.seen =
                  state.billing.seen := by
                simp only [perform, Billing.perform, seen]
                rfl
              change {messageId | (state.perform _).billing.seen messageId ≠ none}.Finite
              rw [later]
              exact finite
      | confirm call => exact marked state.billing call.messageId (some .confirmed) finite
      | release call => exact marked state.billing call.messageId none finite
      | _ => exact finite

/-- There are always ids left to draw, also where the second depends on the first. -/
theorem exists_drawn {Allowed : Application → Step → Prop}
    (reached : application.Reached Allowed state) {draw : String → String}
    (distinct : Function.Injective draw) :
    ∃ policyId, policyId ∉ state.policyIds ∧ state.Fresh (draw policyId) := by
  have known := (seen_finite reached).preimage distinct.injOn
  have claimed := state.unclaimed.toFinset.finite_toSet.preimage distinct.injOn
  rcases Infinite.exists_notMem_finset
    (state.policyIds.toFinset ∪ (known.toFinset ∪ claimed.toFinset)) with ⟨policyId, unknown⟩
  simp only [Finset.mem_union, Set.Finite.mem_toFinset, Set.mem_preimage, Set.mem_ofPred_eq,
    Finset.mem_coe, Multiset.mem_toFinset, not_or, not_not] at unknown
  exact ⟨policyId, unknown.1, unknown.2.2, unknown.2.1⟩

theorem keyFree_of_drawn (reached : application.Reached Orderly state)
    {event : ApplicationAccepted} {policyId messageId : String}
    (member : .issue event policyId messageId ∈ state.writes) :
    state.KeyFree (.issue event policyId messageId) := by
  have distinct := policyIds_nodup reached
  rw [policyIds, bind_erase Write.policyIds member, Multiset.nodup_add] at distinct
  have apart := Multiset.disjoint_right.mp distinct.2.2
    (Multiset.mem_add.mpr (.inl (Multiset.mem_singleton_self policyId)))
  simpa [KeyFree] using apart

structure Sized (state : Application) : Prop where
  applications : ∀ row ∈ state.applications, row.Payable
  writes : ∀ row, .submit row ∈ state.writes → row.Payable

private theorem Sized.step {step : Step} (sized : Sized state) (orderly : Orderly state step)
    (enabled : state.Enabled step) : Sized (state.perform step) := by
  cases step with
  | submit row =>
      refine ⟨sized.applications, ?_⟩
      intro other member
      rcases Multiset.mem_cons.mp member with now | before
      · cases now
        exact orderly.2
      · exact sized.writes other before
  | commit write =>
      have left : ∀ row, .submit row ∈ state.writes.erase write → row.Payable :=
        fun row member => sized.writes row (Multiset.mem_of_mem_erase member)
      cases write with
      | issue event policyId messageId => exact ⟨sized.applications, left⟩
      | submit row =>
          refine ⟨?_, left⟩
          intro other member
          rcases List.mem_append.mp member with before | now
          · exact sized.applications other before
          · rw [List.mem_singleton.mp now]
            exact sized.writes row enabled.1
  | rollback write =>
      exact ⟨sized.applications,
        fun row member => sized.writes row (Multiset.mem_of_mem_erase member)⟩
  | deliver message policyId messageId =>
      cases message with
      | accepted event =>
          refine ⟨sized.applications, ?_⟩
          intro row member
          rcases Multiset.mem_cons.mp member with now | before
          · cases now
          · exact sized.writes row before
      | _ => exact ⟨sized.applications, sized.writes⟩
  | return_ stage =>
      rw [perform_return]
      exact ⟨sized.applications, sized.writes⟩
  | _ => exact ⟨sized.applications, sized.writes⟩

theorem Sized.of_reached (reached : application.Reached Orderly state) : Sized state := by
  apply reached.invariant Sized
  · intro state first
    cases first
    exact ⟨nofun, fun _ member => absurd member (Multiset.notMem_zero _)⟩
  · intro state step sized orderly enabled
    exact sized.step orderly enabled

private theorem storable_of_orderly (reached : application.Reached Orderly state)
    {event : ApplicationAccepted} {policyId messageId : String}
    (member : .issue event policyId messageId ∈ state.writes) :
    (policyRow event policyId).Storable :=
  storable_of_payable (reached.mono fun _ _ _ => trivial) (Sized.of_reached reached).applications
    member

theorem attends_working (reached : application.Reached Orderly state) :
    Attends Working state where
  relay _ := ⟨rfl, trivial, trivial⟩
  deliver message := by
    rcases exists_drawn reached Function.injective_id with ⟨policyId, unused, fresh⟩
    refine ⟨policyId, policyId, rfl, ?_⟩
    cases message with
    | accepted event => exact ⟨fresh, unused⟩
    | _ => exact ⟨trivial, trivial⟩
  write write member := by
    cases write with
    | submit row => exact ⟨.rollback (.submit row), ⟨rfl, trivial, trivial⟩, member⟩
    | issue event policyId messageId =>
        exact ⟨.commit (.issue event policyId messageId), ⟨rfl, trivial, trivial⟩, member,
          keyFree_of_drawn reached member, storable_of_orderly reached member⟩
  publish _ := ⟨rfl, trivial, trivial⟩
  return_ _ := ⟨rfl, trivial, trivial⟩
  bill action smoothly := by
    cases action with
    | raise call => exact smoothly.elim
    | die call => exact smoothly.elim
    | _ => exact ⟨rfl, trivial, trivial⟩

private theorem runsDown_working :
    application.RunsDown Working (application.Reached Orderly) work where
  kept _ step reached working enabled := .next step reached working.2 enabled
  lighter _ _ _ working enabled := work_step working.1 enabled

private theorem applications_prefix (step : Step) :
    state.applications <+: (state.perform step).applications := by
  cases step with
  | commit write =>
      cases write with
      | submit row => exact List.prefix_append _ _
      | issue event policyId messageId => exact List.prefix_rfl
  | deliver message policyId messageId => cases message <;> exact List.prefix_rfl
  | return_ stage =>
      rw [perform_return]
  | _ => exact List.prefix_rfl

/-- What comes of an application: above the limit a refusal and nothing else, and otherwise
an acceptance, a policy and a premium, all at the price of the rating table. -/
structure ComesOut (state : Application) (row : ApplicationRow) : Prop where
  referred : referralThreshold < row.sumAssured →
    state.verdicts.filter (fun verdict => verdict.applicationId = row.id) =
      [.declined row.declination] ∧
    state.policies.filter (fun policy => policy.applicationId = row.id) = [] ∧
    state.billing.published.filter (fun charge => charge.correlation = row.id) = []
  insured : row.sumAssured ≤ referralThreshold → ∃ policyId,
    state.verdicts.filter (fun verdict => verdict.applicationId = row.id) =
      [.accepted row.acceptance] ∧
    state.policies.filter (fun policy => policy.applicationId = row.id) =
      [⟨policyId, row.id, row.applicant, row.product, row.ratedPremium⟩] ∧
    state.billing.published.filter (fun charge => charge.correlation = row.id) =
      [⟨⟨policyId, row.applicant, row.ratedPremium⟩, row.id⟩]

end Application

/-- When nothing fails and every premium fits its column, every application on record comes out,
whichever module goes first: at most twenty-two steps a submission are taken in all, and only
where each has come out can no more be taken. -/
theorem every_application_comes_out {actions : List Step} {state : Application}
    (ran : application.Ran Orderly actions state) :
    (∀ more last, application.Leads Working state more last →
      actions.countP Step.own + more.length ≤ 22 * actions.countP (fun step => !step.own) ∧
      state.applications <+: last.applications ∧
      (application.Still Working last → ∀ row ∈ last.applications, last.ComesOut row)) ∧
    ∃ more last, application.Leads Working state more last ∧ application.Still Working last := by
  have reached := ran.reached
  have down := Application.runsDown_working
  constructor
  · intro more last path
    have bound := work_le_given ran
    have taken := down.length_le path reached
    refine ⟨by omega, ?_, ?_⟩
    · apply path.keeps (fun last => state.applications <+: last.applications)
      · intro last step earlier _ _
        exact earlier.trans (Application.applications_prefix step)
      · exact List.prefix_rfl
    · intro still row known
      have orderly := down.known path reached
      have quiet := ((Application.attends_working orderly).atRest still).quiet
      have flowing : last.Flowing := .of_reached (orderly.mono fun _ _ orderly => orderly.1)
      exact ⟨flowing.referred quiet known, flowing.insured quiet known⟩
  · rcases down.settles reached with ⟨more, last, path, -, still⟩
    exact ⟨more, last, path, still⟩

/-- Of two applications one is on record, and insured in the end. -/
theorem applicant_insured : ∃ (state : Application) (policyId : String),
    state.policies.filter (fun policy => policy.applicationId = "APP-1") =
      [⟨policyId, "APP-1", applicant.applicant, applicant.product, applicant.ratedPremium⟩] := by
  have ran := TransitionSystem.Ran.of_isSome_run application Orderly rfl
    [.submit applicant, .submit referredApplicant, .commit (.submit applicant),
      .relay (.submitted submission)]
    (by decide +kernel)
  rcases every_application_comes_out ran with ⟨outcome, more, last, path, still⟩
  rcases outcome more last path with ⟨-, kept, comesOut⟩
  have known : applicant ∈ last.applications := kept.subset (by decide +kernel)
  rcases (comesOut still applicant known).insured (by decide) with ⟨policyId, -, policies, -⟩
  exact ⟨last, policyId, policies⟩

end AmqpApps.PolicyAdministration
