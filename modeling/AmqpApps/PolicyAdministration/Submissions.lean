import AmqpApps.PolicyAdministration.Monolith

/-! # Every submission comes out

The modules on their database come to rest, whichever of them goes first and whichever
operation raises. Where nothing that has been submitted fails and every premium fits its column,
every application whose `submit` returned has come out by then.
-/

namespace AmqpApps.PolicyAdministration

def PolicyCall.issues : PolicyCall → Bool
  | submit .. => false
  | issue .. => true

namespace MonolithStep

/-- The steps that the modules, the relay and the broker take by themselves, and calls that
have started. -/
def own : MonolithStep → Bool
  | policies (.start _) | relayAgain _ => false
  | policies _ | issue .. | relay _ => true
  | modules step => step.own

def failsIssue : MonolithStep → Bool
  | policies (.fail running _) => running.call.issues
  | _ => false

private theorem own_of_seen {draw : EnvelopeIds} {step : MonolithStep} {one : Step}
    (own : step.own = true) (isSeen : step.seen draw = some one) : one.own = true := by
  cases step with
  | policies action =>
      cases action with
      | start call => cases own
      | fail running left => cases isSeen
      | succeed running =>
          simp only [seen, CallAction.seen] at isSeen
          split at isSeen
          · cases isSeen
          · cases isSeen
            rfl
      | finish running =>
          simp only [seen, CallAction.seen] at isSeen
          split at isSeen
          · cases isSeen
            rfl
          · cases isSeen
  | issue event policyId =>
      cases isSeen
      rfl
  | relay record =>
      cases isSeen
      rfl
  | relayAgain record => cases own
  | modules step =>
      cases isSeen
      exact own

end MonolithStep

namespace Monolith

variable {draw : EnvelopeIds} {state : Monolith}

/-- The steps that can still be taken, at most: a step of the application can start a call of
`_issue`, whose operations and their end are nine. -/
def work (draw : EnvelopeIds) (state : Monolith) : Nat :=
  state.policies.work + 10 * (state.application draw).work

private theorem size_submit (applicationId applicant product : String) (sumAssured age : Int) :
    (PolicyCall.submit applicationId applicant product sumAssured age).code.start.size = 7 :=
  rfl

private theorem size_issue (event : ApplicationAccepted) (policyId : String) :
    (PolicyCall.issue event policyId).code.start.size = 8 :=
  rfl

private theorem work_start (policies : Policies) (call : PolicyCall) :
    (policyModule.perform policies (.start call)).work =
      policies.work + call.code.start.size + 1 := by
  simp only [policyModule, calls, Calls.perform, Calls.work, Multiset.map_cons, Multiset.sum_cons]
  omega

private theorem work_step {step : MonolithStep}
    (reached : policyModule.Reached Stores state.policies)
    (own : step.own = true) (enabled : state.Enabled step) :
    (state.perform draw step).work draw < state.work draw := by
  have less : ∀ {one}, step.seen draw = some one → (state.application draw).Enabled one →
      ((state.application draw).perform one).work < (state.application draw).work :=
    fun isSeen possible => Application.work_step (step.own_of_seen own isSeen) possible
  rcases seen_step draw reached enabled with
    ⟨unseen, same⟩ | ⟨one, isSeen, possible, moved⟩
  · cases step with
    | policies action =>
        have fewer : (policyModule.perform state.policies action).work < state.policies.work := by
          apply Calls.work_step _ enabled.2.1
          rintro call rfl
          cases own
        rw [work, same]
        exact Nat.add_lt_add_right fewer _
    | _ => cases unseen
  · have fewer := less isSeen possible
    rw [work, moved, work]
    cases step with
    | policies action =>
        have fewerToo : (policyModule.perform state.policies action).work <
            state.policies.work := by
          apply Calls.work_step _ enabled.2.1
          rintro call rfl
          cases own
        have left : (state.perform draw (.policies action)).policies.work <
          state.policies.work := fewerToo
        omega
    | issue event policyId =>
        have started := work_start state.policies (.issue event policyId)
        rw [size_issue] at started
        have left : (state.perform draw (.issue event policyId)).policies.work = _ := started
        omega
    | _ =>
        have left : state.policies.work = state.policies.work := rfl
        simp only [perform]
        omega

private theorem work_given {step : MonolithStep} (given : step.own = false)
    (enabled : state.Enabled step) :
    (state.perform draw step).work draw ≤ state.work draw + 228 := by
  cases step with
  | policies action =>
      cases action with
      | start call =>
          cases call with
          | submit applicationId applicant product sumAssured age =>
              have brought := @Application.work_given (state.application draw)
                (.submit ⟨applicationId, applicant, product, sumAssured, age⟩) rfl
              have started := work_start state.policies
                (.submit applicationId applicant product sumAssured age)
              rw [size_submit] at started
              rw [work, application_of_submit, work]
              have left : (state.perform draw (.policies (.start
                (.submit applicationId applicant product sumAssured age)))).policies.work = _ :=
                  started
              omega
          | issue accepted policyId => exact absurd enabled.1 (by simp [startsIssue])
      | _ => cases given
  | issue event policyId => cases given
  | relay record => cases given
  | relayAgain record =>
      have brought := @Application.work_given (state.application draw)
        (.relayAgain (.ofRecord draw record)) rfl
      have moved : (state.perform draw (.relayAgain record)).application draw =
        (state.application draw).perform (.relayAgain (.ofRecord draw record)) := rfl
      rw [work, moved, work]
      simp only [perform]
      omega
  | modules step =>
      have brought := @Application.work_given (state.application draw) step given
      have moved : (state.perform draw (.modules step)).application draw =
        (state.application draw).perform step := (Application.perform_reading enabled.1 _).symm
      rw [work, moved, work]
      simp only [perform]
      omega

/-! ## At rest -/

structure AtRest (state : Monolith) : Prop where
  running : state.policies.running = 0
  pending : state.pending = 0
  queues : state.modules.queues = 0
  stages : state.modules.stages = 0
  calls : state.modules.billing.calls = 0

structure Attends (draw : EnvelopeIds) (Own : Monolith → MonolithStep → Prop)
    (Seen : Application → Step → Prop) (state : Monolith) : Prop where
  call : ∀ running ∈ state.policies.running, ∃ step, Own state step ∧ state.Enabled step
  relay : ∀ record, Own state (.relay record)
  issue : ∀ event, ∃ policyId, Own state (.issue event policyId)
  modules : ∀ step, step.elsewhere = true → Seen (state.application draw) step →
    Own state (.modules step)

private theorem Attends.still {Own : Monolith → MonolithStep → Prop}
    {Seen : Application → Step → Prop}
    (attends : Attends draw Own Seen state)
    (own : ∀ step, Seen (state.application draw) step → step.own = true)
    (still : (monolith draw).Still Own state) :
    AmqpApps.PolicyAdministration.application.Still Seen (state.application draw) := by
  have cannot : ∀ step, Own state step → ¬state.Enabled step := still
  have idle : ∀ write, write ∉ (state.application draw).writes := by
    intro write member
    rcases Multiset.mem_map.mp member with ⟨call, underway, -⟩
    rcases Multiset.mem_map.mp underway with ⟨running, present, -⟩
    rcases attends.call running (Multiset.mem_filter.mp present).1 with ⟨step, own, enabled⟩
    exact cannot step own enabled
  intro step seen enabled
  have isOwn := own step seen
  have elsewhere : step.elsewhere = true → state.modules.Enabled step → False :=
    fun elsewhere enabled => cannot _ (attends.modules step elsewhere seen) ⟨elsewhere, enabled⟩
  cases step with
  | submit row => cases isOwn
  | relayAgain record => cases isOwn
  | duplicate message => cases isOwn
  | commit write => exact idle write enabled.1
  | rollback write => exact idle write enabled
  | relay message =>
      rcases Multiset.mem_map.mp enabled with ⟨record, present, -⟩
      exact cannot _ (attends.relay record) present
  | deliver message policyId messageId =>
      cases message with
      | accepted event =>
          rcases attends.issue event with ⟨drawn, own⟩
          exact cannot _ own enabled
      | _ => exact elsewhere rfl enabled
  | _ => exact elsewhere rfl enabled

private theorem Attends.atRest {Own : Monolith → MonolithStep → Prop}
    {Seen : Application → Step → Prop} (attends : Attends draw Own Seen state)
    (still : (monolith draw).Still Own state) (seen : (state.application draw).AtRest) :
    state.AtRest where
  running := by
    apply Multiset.eq_zero_of_forall_notMem
    intro running member
    rcases attends.call running member with ⟨step, own, enabled⟩
    exact still step own enabled
  pending := Multiset.map_eq_zero.mp seen.pending
  queues := seen.queues
  stages := seen.stages
  calls := seen.calls

/-! ## Left to themselves -/

private theorem free_of_reached {policies : Policies}
    (reached : policyModule.Reached Stores policies) :
    Calls.KeysFree (Written.key TableRow.key) policies.database :=
  keysFree_of_reached reached

private theorem stores_fail {policies : Policies} (reached : policyModule.Reached Stores policies)
    {running : Running PolicyCall (Written TableRow (OutboxRecord Announcement))}
    (member : running ∈ policies.running) : Stores policies (.fail running running.session) :=
  Calls.holds_of_writing reached running member

private theorem stores_of_silent {policies : Policies} {action : PoliciesAction}
    (silent : action.writing = []) : Stores policies action := by
  intro write member
  rw [silent] at member
  cases member

private theorem attends_byItself (draw : EnvelopeIds)
    (reached : policyModule.Reached Stores state.policies) :
    Attends draw (TransitionSystem.byItself (·.own = true))
      (TransitionSystem.byItself (·.own = true)) state where
  call running member := by
    have ends := Calls.comes_to_end PolicyCall.code member (free_of_reached reached)
    rcases ends with enabled | ⟨silent, -, enabled⟩ | enabled
    · exact ⟨.policies (.fail running running.session), rfl, rfl, enabled,
        stores_fail reached member⟩
    · exact ⟨.policies (.succeed running), rfl, rfl, enabled, stores_of_silent silent⟩
    · exact ⟨.policies (.finish running), rfl, rfl, enabled, stores_of_silent rfl⟩
  relay _ := rfl
  issue _ := ⟨"", rfl⟩
  modules _ _ own := own

private theorem runsDown :
    (monolith draw).RunsDown (TransitionSystem.byItself (·.own = true))
      ((monolith draw).Reached TransitionSystem.anyStep) (work draw) where
  kept _ step reached _ enabled := .next step reached trivial enabled
  lighter _ _ reached own enabled := work_step (policies_reached reached) own enabled

end Monolith

/-- The steps that have been taken unasked and those that can still be taken are at most so many
for each that came from outside. -/
theorem monolith_work_le {draw : EnvelopeIds} {Allowed : Monolith → MonolithStep → Prop}
    {actions : List MonolithStep} {state : Monolith}
    (ran : (monolith draw).Ran Allowed actions state) :
    actions.countP MonolithStep.own + state.work draw ≤
      228 * actions.countP (fun step => !step.own) := by
  have bound := ran.taken_le MonolithStep.own (fun step => !step.own) (Monolith.work draw) 0 228
    (by
      rintro _ rfl
      exact le_rfl)
    (fun state step reached own enabled =>
      Monolith.work_step (Monolith.policies_reached reached) own enabled)
    (fun state step given enabled => by
      rw [given]
      exact Monolith.work_given given enabled)
  omega

/-- Left to themselves the modules come to rest on their database, whatever fails on the way:
over a whole run they take a bounded number of steps for each that came from outside, operations
of the calls included, and only where no call is open and nothing is left to be relayed, taken or
charged for can they take no more. -/
theorem monolith_settles {draw : EnvelopeIds} {Allowed : Monolith → MonolithStep → Prop}
    {actions : List MonolithStep} {state : Monolith}
    (ran : (monolith draw).Ran Allowed actions state) :
    (∀ more last,
      (monolith draw).Leads (TransitionSystem.byItself (·.own = true)) state more last →
      actions.countP MonolithStep.own + more.length ≤
        228 * actions.countP (fun step => !step.own) ∧
      ((monolith draw).Still (TransitionSystem.byItself (·.own = true)) last → last.AtRest)) ∧
    ∃ more last,
      (monolith draw).Leads (TransitionSystem.byItself (·.own = true)) state more last ∧
        last.AtRest := by
  have reached : (monolith draw).Reached TransitionSystem.anyStep state :=
    ran.reached.mono fun _ _ _ => trivial
  have down := @Monolith.runsDown draw
  have rests : ∀ {last}, (monolith draw).Reached TransitionSystem.anyStep last →
      (monolith draw).Still (TransitionSystem.byItself (·.own = true)) last → last.AtRest := by
    intro last reached still
    have attends := Monolith.attends_byItself draw (Monolith.policies_reached reached)
    exact attends.atRest still
      ((Application.attends_byItself _).atRest (attends.still (fun _ own => own) still))
  constructor
  · intro more last path
    have bound := monolith_work_le ran
    have taken := down.length_le path reached
    exact ⟨by omega, rests (down.known path reached)⟩
  · rcases down.settles reached with ⟨more, last, path, known, still⟩
    exact ⟨more, last, path, rests known still⟩

/-- A stage dies while a call of `submit` is on its way. -/
theorem open_call_settles : ∃ state : Monolith, state.policies.running ≠ 0 ∧
    ∃ more last,
      (monolith drawn).Leads (TransitionSystem.byItself (·.own = true)) state more last ∧
        last.AtRest := by
  have ran := TransitionSystem.Ran.of_isSome_run (monolith drawn) TransitionSystem.anyStep rfl
    (appliedTwice ++ [.policies (.start applying),
      .modules (.deliver (.submitted submission) "" ""),
      .modules (.fail ⟨.submitted submission, false⟩)])
    (by decide +kernel)
  exact ⟨_, by decide +kernel, (monolith_settles ran).2⟩

namespace Monolith

variable {draw : EnvelopeIds} {state : Monolith}

/-! ## Where nothing submitted fails -/

/-- Nothing that has been submitted fails and every premium fits its column, though calls of
`submit` may fail. -/
def InOrder (draw : EnvelopeIds) (state : Monolith) (step : MonolithStep) : Prop :=
  Within draw Orderly state step ∧ step.failsIssue = false

instance (draw : EnvelopeIds) (state : Monolith) (step : MonolithStep) :
    Decidable (InOrder draw state step) :=
  inferInstanceAs (Decidable ((∀ one ∈ step.seen draw, _) ∧ _))

def Working (draw : EnvelopeIds) (state : Monolith) (step : MonolithStep) : Prop :=
  step.own = true ∧ InOrder draw state step

private theorem working_of_unseen {step : MonolithStep} (own : step.own = true)
    (unseen : step.seen draw = none) (unfailing : step.failsIssue = false) :
    Working draw state step := by
  refine ⟨own, ?_, unfailing⟩
  intro one isSeen
  rw [unseen] at isSeen
  cases isSeen

private theorem keysFree_of_keyFree (draw : EnvelopeIds) {call : PolicyCall}
    (free : Calls.KeysFree (Written.key TableRow.key) state.policies.database)
    (unused : (state.application draw).KeyFree (call.write draw)) :
    Calls.KeysFree (Written.key TableRow.key) (state.policies.database ++ [call.writes]) := by
  rw [Calls.KeysFree, Calls.keys_rows state.policies] at free
  rw [Calls.KeysFree, List.flatten_append, List.filterMap_append, Calls.keys_rows state.policies]
  refine List.nodup_append.mpr ⟨free, List.nodup_singleton _, ?_⟩
  intro taken member mine itsMine same
  have its : mine = call.row.key := List.mem_singleton.mp itsMine
  rcases List.mem_map.mp member with ⟨row, present, key⟩
  have clash : row.key = call.row.key := by rw [key, same, its]
  cases call with
  | submit applicationId applicant product sumAssured age =>
      cases row with
      | application other =>
          refine unused (List.mem_map.mpr ⟨other, ?_, (Prod.mk.inj clash).2⟩)
          exact List.mem_filterMap.mpr ⟨_, present, rfl⟩
      | policy other => exact absurd (Prod.mk.inj clash).1 (by decide)
  | issue accepted policyId =>
      cases row with
      | application other => exact absurd (Prod.mk.inj clash).1 (by decide)
      | policy other =>
          refine unused (List.mem_map.mpr ⟨other, ?_, (Prod.mk.inj clash).2⟩)
          exact List.mem_filterMap.mpr ⟨_, present, rfl⟩

private theorem orderly_reached (reached : (monolith draw).Reached (InOrder draw) state) :
    AmqpApps.PolicyAdministration.application.Reached Orderly (state.application draw) :=
  seen_reached (reached.mono fun _ _ inOrder => inOrder.1)

private theorem issues_return (reached : (monolith draw).Reached (InOrder draw) state) :
    ∀ running ∈ state.policies.running, running.call.issues = true →
      running.script.returns = true := by
  have own : policyModule.Reached
      (fun _ action => (MonolithStep.policies action).failsIssue = false) state.policies := by
    apply reached.project Monolith.policies
    · rintro _ rfl
      rfl
    · intro state step inOrder enabled
      cases step with
      | policies action => exact .inr ⟨action, inOrder.2, enabled.2.1, rfl⟩
      | issue event policyId => exact .inr ⟨.start (.issue event policyId), rfl, trivial, rfl⟩
      | relay record => exact .inl rfl
      | relayAgain record => exact .inl rfl
      | modules step => exact .inl rfl
  apply Calls.returns_of_reached _ _ own
  · intro call issues
    cases call with
    | submit applicationId applicant product sumAssured age => cases issues
    | issue accepted policyId => rfl
  · intro state running left unfailing
    exact unfailing

/-- `_issue` is called for what underwriting has accepted, and writes nothing but its row and
its record. -/
theorem issues_storable (reached : (monolith draw).Reached (InOrder draw) state) :
    ∀ running ∈ state.policies.running, (running.call.issues = true → running.call.row.Storable) ∧
      running.script.writes ⊆ running.call.writes := by
  have own : policyModule.Reached
      (fun _ action => ∀ call, action = .start call → call.issues = true → call.row.Storable)
      state.policies := by
    apply reached.project_reached Monolith.policies
    · rintro _ rfl
      rfl
    · intro state step before inOrder enabled
      cases step with
      | policies action =>
          refine .inr ⟨action, ?_, enabled.2.1, rfl⟩
          rintro call rfl issues
          cases call with
          | submit applicationId applicant product sumAssured age => cases issues
          | issue accepted policyId => exact absurd enabled.1 (by simp [startsIssue])
      | issue event policyId =>
          refine .inr ⟨.start (.issue event policyId), ?_, trivial, rfl⟩
          rintro call ⟨rfl⟩ -
          have seen := orderly_reached before
          have founded := ((Application.carries_founded (seen.mono fun _ _ _ => trivial)).queued
            (.accepted event) enabled).1
          rcases founded with ⟨row, known, accepted⟩
          rcases row.outcome_accepted accepted with ⟨within, acceptance⟩
          rw [acceptance]
          exact (Application.Sized.of_reached seen).applications row known within
      | relay record => exact .inl rfl
      | relayAgain record => exact .inl rfl
      | modules step => exact .inl rfl
  let Fits (call : PolicyCall)
      (script : Script (Operation (Written TableRow (OutboxRecord Announcement)))) : Prop :=
    (call.issues = true → call.row.Storable) ∧ script.writes ⊆ call.writes
  apply Calls.scripts_of_reached Fits _ _ own
  · intro state call starts
    refine ⟨starts call rfl, ?_⟩
    cases call <;> simp [PolicyCall.code, submit, issue, write, Block.start, Block.script,
      Script.writes, Operation.written, add, PolicyCall.writes, PolicyCall.row, PolicyCall.record]
  · rintro call op returned raised ⟨storable, among⟩
    have both := List.append_subset.mp (List.append_subset.mp among).2
    exact ⟨⟨storable, both.1⟩, storable, both.2⟩

variable {running : Running PolicyCall (Written TableRow (OutboxRecord Announcement))}

private theorem stores_succeed (reached : (monolith draw).Reached (InOrder draw) state)
    (member : running ∈ state.policies.running) (issues : running.call.issues = true) :
    Stores state.policies (.succeed running) := by
  have held := Calls.holds_of_writing (policies_reached reached) running member
  rcases issues_storable reached running member with ⟨storable, among⟩
  rcases running with ⟨call, script, session⟩
  cases script with
  | done outcome => exact nofun
  | next op returned raised =>
      intro written present row isRow
      cases op with
      | execute write =>
          cases connection : session.connection with
          | none => simp [CallAction.writing, Operation.after, connection] at present
          | some pending =>
              simp only [CallAction.writing, Operation.after, connection, Option.map_some,
                Option.getD_some] at present
              rcases List.mem_append.mp present with before | now
              · exact held written (by simpa [connection] using before) row isRow
              · have mine : written ∈ call.writes :=
                  among (List.mem_append_left _ now)
                rcases List.mem_cons.mp mine with same | other
                · rw [same] at isRow
                  cases isRow
                  exact storable issues
                · rw [List.mem_singleton.mp other] at isRow
                  cases isRow
      | evaluate => exact held written present row isRow
      | _ => cases connection : session.connection <;>
          simp [CallAction.writing, Operation.after, connection] at present

/-- A call of `submit` may fail, and so it can always come to its end. -/
theorem submit_goes_on (reached : (monolith draw).Reached (InOrder draw) state)
    (member : running ∈ state.policies.running) (submits : running.call.issues = false) :
    ∃ step, Working draw state step ∧ state.Enabled step := by
  rcases Calls.comes_to_end PolicyCall.code member
    (free_of_reached (policies_reached reached)) with
    enabled | ⟨silent, nothing, enabled⟩ | enabled
  · exact ⟨.policies (.fail running running.session), working_of_unseen rfl rfl submits, rfl,
      enabled, stores_fail (policies_reached reached) member⟩
  · have unseen : MonolithStep.seen draw (.policies (.succeed running)) = none := by
      simp [MonolithStep.seen, CallAction.seen, nothing]
    exact ⟨.policies (.succeed running), working_of_unseen rfl unseen rfl, rfl, enabled,
      stores_of_silent silent⟩
  · refine ⟨.policies (.finish running), ⟨rfl, ?_, rfl⟩, rfl, enabled, stores_of_silent rfl⟩
    intro one isSeen
    rcases running with ⟨call, script, session⟩
    cases call with
    | issue accepted policyId => cases submits
    | submit applicationId applicant product sumAssured age =>
        simp only [MonolithStep.seen, CallAction.seen] at isSeen
        split at isSeen
        · cases isSeen
          exact ⟨trivial, trivial⟩
        · cases isSeen

/-- No row is in the way of a call of `_issue`, which has an id of its own. -/
theorem issue_goes_on (reached : (monolith draw).Reached (InOrder draw) state)
    (member : running ∈ state.policies.running) (issues : running.call.issues = true) :
    ∃ step, Working draw state step ∧ state.Enabled step := by
  have own := policies_reached reached
  have atomic := atomic_of_reached own
  have free : Calls.KeysFree (Written.key TableRow.key)
      (state.policies.database ++ running.persists) := by
    rcases atomic.persists member with silent | ⟨nothing, whole⟩
    · rw [silent, List.append_nil]
      exact free_of_reached own
    · rw [whole]
      apply keysFree_of_keyFree draw (free_of_reached own)
      have underway : running.call ∈ state.policies.seen.underway := by
        refine Multiset.mem_map_of_mem _ (Multiset.mem_filter.mpr ⟨member, ?_⟩)
        rw [Running.isOpen, nothing]
        rfl
      have open_ : running.call.write draw ∈ (state.application draw).writes :=
        Multiset.mem_map_of_mem _ underway
      cases call : running.call with
      | submit applicationId applicant product sumAssured age =>
          rw [call] at issues
          cases issues
      | issue accepted policyId =>
          rw [call] at open_
          exact Application.keyFree_of_drawn (orderly_reached reached) open_
  rcases Calls.goes_on PolicyCall.code member free with
    enabled | ⟨⟨outcome, finished⟩, enabled⟩
  · refine ⟨.policies (.succeed running), ⟨rfl, ?_, rfl⟩, rfl, enabled,
      stores_succeed reached member issues⟩
    intro one isSeen
    rcases running with ⟨call, script, session⟩
    simp only [MonolithStep.seen, CallAction.seen] at isSeen
    split at isSeen
    · cases isSeen
    · cases isSeen
      exact ⟨trivial, trivial⟩
  · have closed := atomic.closed_of_returns member finished
      (issues_return reached running member issues)
    have unseen : MonolithStep.seen draw (.policies (.finish running)) = none := by
      simp [MonolithStep.seen, CallAction.seen, closed]
    exact ⟨.policies (.finish running), working_of_unseen rfl unseen rfl, rfl, enabled,
      stores_of_silent rfl⟩

private theorem attends_working
    (distinct : ∀ event, Function.Injective fun policyId =>
      draw (PolicyCall.issue event policyId).record)
    (reached : (monolith draw).Reached (InOrder draw) state) :
    Attends draw (Working draw) AmqpApps.PolicyAdministration.Working state where
  call running member := by
    cases issues : running.call.issues with
    | false => exact submit_goes_on reached member issues
    | true => exact issue_goes_on reached member issues
  relay record := ⟨rfl, fun _ isSeen => by cases isSeen; exact ⟨trivial, trivial⟩, rfl⟩
  issue event := by
    rcases Application.exists_drawn (orderly_reached reached) (distinct event) with
      ⟨policyId, unused, fresh⟩
    exact ⟨policyId, rfl, fun _ isSeen => by cases isSeen; exact ⟨fresh, unused⟩, rfl⟩
  modules step elsewhere working :=
    ⟨working.1, fun _ isSeen => by cases isSeen; exact working.2, rfl⟩

private theorem runsDown_working :
    (monolith draw).RunsDown (Working draw) ((monolith draw).Reached (InOrder draw))
      (work draw) where
  kept _ step reached working enabled := .next step reached working.2 enabled
  lighter _ _ reached working enabled := work_step (policies_reached reached) working.1 enabled

private theorem ended_part (step : MonolithStep) :
    state.policies.ended <+: (state.perform draw step).policies.ended := by
  have kept : ∀ action, state.policies.ended <+:
      (policyModule.perform state.policies action).ended := by
    intro action
    cases action with
    | start call => exact List.prefix_rfl
    | succeed running =>
        simp only [policyModule, calls, Calls.perform]
        split <;> exact List.prefix_rfl
    | fail running left =>
        simp only [policyModule, calls, Calls.perform]
        split <;> exact List.prefix_rfl
    | finish running =>
        simp only [policyModule, calls, Calls.perform]
        split
        · exact List.prefix_rfl
        · exact List.prefix_append _ _
  cases step with
  | policies action => exact kept action
  | issue event policyId => exact kept _
  | relay record => exact List.prefix_rfl
  | relayAgain record => exact List.prefix_rfl
  | modules step => exact List.prefix_rfl

end Monolith

/-- Left to themselves the modules come to rest on their database, whichever operation of
whichever call raises; and where nothing that has been submitted fails and every premium fits its
column, they can be at rest only once every application whose `submit` has returned has come
out. -/
theorem every_submission_comes_out {draw : EnvelopeIds}
    (distinct : ∀ event, Function.Injective fun policyId =>
      draw (PolicyCall.issue event policyId).record)
    {actions : List MonolithStep} {state : Monolith}
    (ran : (monolith draw).Ran (Monolith.InOrder draw) actions state) :
    (∀ more last, (monolith draw).Leads (Monolith.Working draw) state more last →
      actions.countP MonolithStep.own + more.length ≤
        228 * actions.countP (fun step => !step.own) ∧
      state.policies.ended <+: last.policies.ended ∧
      ((monolith draw).Still (Monolith.Working draw) last → last.AtRest ∧
        ∀ ended ∈ last.policies.ended, ended.outcome = .returned →
          ∀ row, ended.call.row = .application row → (last.application draw).ComesOut row)) ∧
    ∃ more last, (monolith draw).Leads (Monolith.Working draw) state more last ∧
      (monolith draw).Still (Monolith.Working draw) last := by
  have reached := ran.reached
  have down := @Monolith.runsDown_working draw
  constructor
  · intro more last path
    have bound := monolith_work_le ran
    have taken := down.length_le path reached
    refine ⟨by omega, ?_, ?_⟩
    · apply path.keeps fun last => state.policies.ended <+: last.policies.ended
      · intro last step earlier _ _
        exact earlier.trans (Monolith.ended_part step)
      · exact List.prefix_rfl
    · intro still
      have inOrder := down.known path reached
      have seen := Monolith.orderly_reached inOrder
      have attends := Monolith.attends_working distinct inOrder
      have rest := (Application.attends_working seen).atRest
        (attends.still (fun _ working => working.1) still)
      refine ⟨attends.atRest still rest, ?_⟩
      intro ended member returned row submits
      have known := Monolith.known_of_returned draw
        (Monolith.policies_reached inOrder) member returned submits
      have flowing : (last.application draw).Flowing :=
        .of_reached (seen.mono fun _ _ orderly => orderly.1)
      exact ⟨flowing.referred rest.quiet known, flowing.insured rest.quiet known⟩
  · rcases down.settles reached with ⟨more, last, path, -, still⟩
    exact ⟨more, last, path, still⟩

/-- An applicant whose first call is cancelled is insured in the end. -/
theorem second_try_insured : ∃ (last : Monolith) (policyId : String),
    (last.application drawn).policies.filter (fun policy => policy.applicationId = "APP-1") =
      [⟨policyId, "APP-1", applicant.applicant, applicant.product, applicant.ratedPremium⟩] := by
  have ran := TransitionSystem.Ran.of_isSome_run (monolith drawn) (Monolith.InOrder drawn) rfl
    appliedTwice (by decide +kernel)
  rcases every_submission_comes_out (fun _ _ _ same => same) ran with
    ⟨outcome, more, last, path, still⟩
  rcases outcome more last path with ⟨-, kept, comesOut⟩
  rcases comesOut still with ⟨-, out⟩
  have known : (⟨applying, .returned, ⟨none, [applying.writes]⟩⟩ :
      Ended PolicyCall (Written TableRow (OutboxRecord Announcement))) ∈ last.policies.ended :=
    kept.subset (by decide +kernel)
  rcases (out _ known rfl applicant rfl).insured (by decide) with ⟨policyId, -, policies, -⟩
  exact ⟨last, policyId, policies⟩

end AmqpApps.PolicyAdministration
