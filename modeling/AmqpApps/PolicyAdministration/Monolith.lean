import AmqpApps.Foundation.Transactions
import AmqpApps.OutboxWrites
import AmqpApps.PolicyAdministration.Settling

/-! # One process, one database

`Application` takes a transaction in one step. Here the calls of `submit` and `_issue` go
through theirs operation by operation, any of which may raise, while underwriting, billing and
the relay go on. Seen from outside it is the same application.
-/

namespace AmqpApps.PolicyAdministration

abbrev Policies := Calls PolicyCall (Written TableRow (OutboxRecord Announcement))

abbrev PoliciesAction := CallAction PolicyCall (Written TableRow (OutboxRecord Announcement))

abbrev EnvelopeIds := OutboxRecord Announcement → String

def PolicyCall.writes (call : PolicyCall) : List (Written TableRow (OutboxRecord Announcement)) :=
  [.row call.row, .record call.record]

/-- The call, as `Application` has it. -/
def PolicyCall.write (draw : EnvelopeIds) : PolicyCall → Write
  | submit applicationId applicant product sumAssured age =>
      .submit ⟨applicationId, applicant, product, sumAssured, age⟩
  | issue accepted policyId =>
      .issue accepted policyId (draw (PolicyCall.issue accepted policyId).record)

def Message.ofRecord (draw : EnvelopeIds) (record : OutboxRecord Announcement) : Message :=
  match record.event with
  | .submitted event => .submitted event
  | .issued event => .issued (draw record) event

def TableRow.application? : TableRow → Option ApplicationRow
  | application row => some row
  | policy _ => none

def TableRow.policy? : TableRow → Option PolicyRow
  | application _ => none
  | policy row => some row

/-! ## The modules but for the tables -/

structure Tables where
  applications : List ApplicationRow
  policies : List PolicyRow
  outbox : List Message
  pending : Multiset Message
  writes : Multiset Write

def Application.reading (modules : Application) (tables : Tables) : Application :=
  { modules with
    applications := tables.applications
    policies := tables.policies
    outbox := tables.outbox
    pending := tables.pending
    writes := tables.writes
    issued := tables.policies.length }

def Step.elsewhere : Step → Bool
  | deliver (.accepted _) _ _ => false
  | deliver .. | duplicate _ | publish _ | return_ _ | fail _ | bill _ => true
  | submit _ | commit _ | rollback _ | relay _ | relayAgain _ => false

namespace Application

variable {modules : Application} {step : Step}

private theorem enabled_reading (elsewhere : step.elsewhere = true) (tables : Tables)
    (enabled : modules.Enabled step) : (modules.reading tables).Enabled step := by
  cases step with
  | submit row => cases elsewhere
  | commit write => cases elsewhere
  | rollback write => cases elsewhere
  | relay record => cases elsewhere
  | relayAgain record => cases elsewhere
  | _ => exact enabled

theorem perform_reading (elsewhere : step.elsewhere = true) (tables : Tables) :
    (modules.reading tables).perform step = (modules.perform step).reading tables := by
  cases step with
  | submit row => cases elsewhere
  | commit write => cases elsewhere
  | rollback write => cases elsewhere
  | relay record => cases elsewhere
  | relayAgain record => cases elsewhere
  | deliver message policyId messageId =>
      cases message with
      | accepted event => cases elsewhere
      | _ => rfl
  | return_ stage =>
      have counts : ∀ verdicts, (modules.reading tables).count verdicts =
          (modules.count verdicts).reading tables := by
        intro verdicts
        unfold count
        split <;> rfl
      simp only [perform, counts]
      rfl
  | _ => rfl

end Application

/-! ## The system -/

structure Monolith where
  policies : Policies
  /-- The records that the relay has yet to mark as published. -/
  pending : Multiset (OutboxRecord Announcement)
  modules : Application

inductive MonolithStep
  | policies (action : PoliciesAction)
  /-- `_issue` takes a message, and draws an id. -/
  | issue (event : ApplicationAccepted) (policyId : String)
  | relay (record : OutboxRecord Announcement)
  | relayAgain (record : OutboxRecord Announcement)
  | modules (step : Step)
deriving DecidableEq

/-- An `INSERT` that returns, and any that has written its row, is of a row that SQLite can
hold. -/
def Stores (_ : Policies) (action : PoliciesAction) : Prop :=
  ∀ write ∈ action.writing, ∀ row ∈ write.row?, row.Storable

instance (policies : Policies) (action : PoliciesAction) : Decidable (Stores policies action) :=
  inferInstanceAs (Decidable (∀ write ∈ action.writing, ∀ row ∈ write.row?, row.Storable))

def startsIssue : PoliciesAction → Bool
  | .start (.issue ..) => true
  | _ => false

namespace Monolith

def initial : Monolith := ⟨.initial, 0, .initial⟩

def Enabled (state : Monolith) : MonolithStep → Prop
  -- Only the consumer of `policy.policies` calls `_issue`.
  | .policies action =>
      startsIssue action = false ∧ policyModule.Enabled state.policies action ∧
        Stores state.policies action
  | .issue event _ => .accepted event ∈ state.modules.queues
  | .relay record => record ∈ state.pending
  | .relayAgain record => record ∈ state.policies.records
  | .modules step => step.elsewhere = true ∧ state.modules.Enabled step

instance (state : Monolith) (step : MonolithStep) : Decidable (state.Enabled step) := by
  rcases step with ⟨⟩ <;> unfold Enabled <;> infer_instance

def perform (draw : EnvelopeIds) (state : Monolith) : MonolithStep → Monolith
  | .policies action =>
      { state with
        policies := policyModule.perform state.policies action
        pending := Multiset.ofList (action.persists.flatten.filterMap Written.record?) +
          state.pending }
  | .issue event policyId =>
      { state with
        policies := policyModule.perform state.policies (.start (.issue event policyId))
        modules := { state.modules with
          queues := state.modules.queues.erase (.accepted event) } }
  | .relay record =>
      { state with
        pending := state.pending.erase record
        modules := state.modules.enqueue [.ofRecord draw record] }
  | .relayAgain record =>
      { state with modules := state.modules.enqueue [.ofRecord draw record] }
  | .modules step => { state with modules := state.modules.perform step }

end Monolith

def monolith (draw : EnvelopeIds) : TransitionSystem Monolith MonolithStep where
  Initial state := state = Monolith.initial
  Enabled := Monolith.Enabled
  perform := Monolith.perform draw

instance (draw : EnvelopeIds) (state : Monolith) (step : MonolithStep) :
    Decidable ((monolith draw).Enabled state step) :=
  inferInstanceAs (Decidable (state.Enabled step))

/-! ## Seen from outside -/

/-- The step of `Application` that a step of a transaction is. -/
def transactionStep (draw : EnvelopeIds) : TransactionStep PolicyCall → Option Step
  | .start (.submit applicationId applicant product sumAssured age) =>
      some (.submit ⟨applicationId, applicant, product, sumAssured, age⟩)
  | .start (.issue ..) => none
  | .commit call => some (.commit (call.write draw))
  | .giveUp call => some (.rollback (call.write draw))

def MonolithStep.seen (draw : EnvelopeIds) : MonolithStep → Option Step
  | policies action => action.seen.bind (transactionStep draw)
  | issue event policyId =>
      some (.deliver (.accepted event) policyId (draw (PolicyCall.issue event policyId).record))
  | relay record => some (.relay (.ofRecord draw record))
  | relayAgain record => some (.relayAgain (.ofRecord draw record))
  | modules step => some step

namespace Monolith

variable {draw : EnvelopeIds} {state : Monolith}

def tables (draw : EnvelopeIds) (state : Monolith) : Tables where
  applications := state.policies.rows.filterMap TableRow.application?
  policies := state.policies.rows.filterMap TableRow.policy?
  outbox := state.policies.records.map (Message.ofRecord draw)
  pending := state.pending.map (Message.ofRecord draw)
  writes := state.policies.seen.underway.map (PolicyCall.write draw)

def application (draw : EnvelopeIds) (state : Monolith) : Application :=
  state.modules.reading (state.tables draw)

def Within (draw : EnvelopeIds) (Allowed : Application → Step → Prop) (state : Monolith)
    (step : MonolithStep) : Prop :=
  ∀ seen ∈ step.seen draw, Allowed (state.application draw) seen

theorem policies_reached {Allowed : Monolith → MonolithStep → Prop}
    (reached : (monolith draw).Reached Allowed state) :
    policyModule.Reached Stores state.policies := by
  apply reached.project Monolith.policies
  · rintro _ rfl
    rfl
  · intro state step _ enabled
    cases step with
    | policies action => exact .inr ⟨action, enabled.2.2, enabled.2.1, rfl⟩
    | issue event policyId => exact .inr ⟨.start (.issue event policyId), nofun, trivial, rfl⟩
    | relay record => exact .inl rfl
    | relayAgain record => exact .inl rfl
    | modules step => exact .inl rfl

theorem atomic_of_reached {Allowed : Policies → PoliciesAction → Prop} {policies : Policies}
    (reached : policyModule.Reached Allowed policies) : policies.Atomic PolicyCall.writes :=
  .of_reached PolicyCall.code_meets reached

private theorem keyFree_of_keysFree {call : PolicyCall}
    (free : Calls.KeysFree (Written.key TableRow.key)
      (state.policies.database ++ [call.writes])) :
    (state.application draw).KeyFree (call.write draw) := by
  rw [Calls.KeysFree, List.flatten_append, List.filterMap_append,
    Calls.keys_rows state.policies] at free
  have apart := (List.nodup_append.mp free).2.2
  have mine : call.row.key ∈ [call.writes].flatten.filterMap (Written.key TableRow.key) :=
    List.mem_singleton_self _
  have unused : ∀ row ∈ state.policies.rows, row.key ≠ call.row.key :=
    fun row member => apart _ (List.mem_map_of_mem member) _ mine
  cases call with
  | submit applicationId applicant product sumAssured age =>
      intro taken
      rcases List.mem_map.mp taken with ⟨row, member, same⟩
      rcases List.mem_filterMap.mp member with ⟨held, present, its⟩
      cases held with
      | application other =>
          cases its
          exact unused _ present (congrArg (Prod.mk "applications") same)
      | policy other => cases its
  | issue accepted policyId =>
      intro taken
      rcases List.mem_map.mp taken with ⟨row, member, same⟩
      rcases List.mem_filterMap.mp member with ⟨held, present, its⟩
      cases held with
      | application other => cases its
      | policy other =>
          cases its
          exact unused _ present (congrArg (Prod.mk "policies") same)

/-- What a call persists, SQLite could hold. -/
theorem storable_of_persists {policies : Policies} {action : PoliciesAction} {call : PolicyCall}
    (reached : policyModule.Reached Stores policies)
    (enabled : policyModule.Enabled policies action)
    (persisted : call.writes ∈ action.persists) : (call.write draw).Storable := by
  rcases Calls.connection_of_persists enabled persisted with ⟨running, member, written⟩
  have storable : call.row.Storable := by
    apply Calls.holds_of_writing reached running member (.row call.row) _ call.row rfl
    rw [written]
    exact List.mem_cons_self
  cases call with
  | submit applicationId applicant product sumAssured age => exact storable
  | issue accepted policyId => exact storable

private theorem application_of_database {other : Monolith} {underway : Multiset PolicyCall}
    (same : other.policies.seen = ⟨underway, state.policies.database⟩) :
    other.application draw = other.modules.reading
      { state.tables draw with
        pending := other.pending.map (Message.ofRecord draw)
        writes := underway.map (PolicyCall.write draw) } := by
  have database : other.policies.database = state.policies.database :=
    congrArg Transactions.database same
  simp only [application, Application.reading, tables, Calls.rows, Calls.records, database, same]

theorem application_of_submit (state : Monolith) (applicationId applicant product : String)
    (sumAssured age : Int) :
    (state.perform draw (.policies (.start
        (.submit applicationId applicant product sumAssured age)))).application draw =
      (state.application draw).perform
        (.submit ⟨applicationId, applicant, product, sumAssured, age⟩) := by
  let call : PolicyCall := .submit applicationId applicant product sumAssured age
  have opened := Calls.underway_open ⟨call, call.code.start, .unopened⟩ state.policies.running rfl
  have begun : (state.perform draw (.policies (.start call))).policies.seen =
      ⟨call ::ₘ state.policies.seen.underway, state.policies.database⟩ :=
    congrArg₂ Transactions.mk opened rfl
  have still : (state.perform draw (.policies (.start call))).pending = state.pending :=
    zero_add _
  rw [application_of_database begun, Multiset.map_cons, still]
  rfl

private theorem application_of_commit {other : Monolith} {call : PolicyCall}
    (underway : call ∈ state.policies.seen.underway)
    (same : other.policies.seen =
      (transactions PolicyCall.writes (Written.key TableRow.key)).perform state.policies.seen
        (.commit call))
    (pending : other.pending = call.record ::ₘ state.pending)
    (modules : other.modules = state.modules) :
    other.application draw = (state.application draw).perform (.commit (call.write draw)) := by
  have database : other.policies.database = state.policies.database ++ [call.writes] :=
    congrArg Transactions.database same
  have left : other.policies.seen.underway = state.policies.seen.underway.erase call :=
    congrArg Transactions.underway same
  have rows : other.policies.rows = state.policies.rows ++ [call.row] := by
    rw [Calls.rows, database, List.flatten_append, List.filterMap_append]
    rfl
  have records : other.policies.records = state.policies.records ++ [call.record] := by
    rw [Calls.records, database, List.flatten_append, List.filterMap_append]
    rfl
  simp only [application, tables, rows, records, left, pending, modules, List.filterMap_append,
    List.map_append, Multiset.map_cons, Multiset.map_erase_of_mem _ _ underway]
  cases call with
  | submit applicationId applicant product sumAssured age =>
      have noPolicy : List.filterMap TableRow.policy?
          [PolicyCall.row (.submit applicationId applicant product sumAssured age)] = [] := rfl
      rw [noPolicy, List.append_nil]
      rfl
  | issue accepted policyId =>
      have noApplication : List.filterMap TableRow.application?
          [PolicyCall.row (.issue accepted policyId)] = [] := rfl
      rw [noApplication, List.append_nil]
      simp only [Application.reading, List.length_append]
      rfl

/-- Each action of a call is one step of the application, or is not seen. -/
theorem seen_policies {action : PoliciesAction}
    (reached : policyModule.Reached Stores state.policies)
    (enabled : state.Enabled (.policies action)) :
    (MonolithStep.seen draw (.policies action) = none ∧
        (state.perform draw (.policies action)).application draw = state.application draw) ∨
      ∃ step, MonolithStep.seen draw (.policies action) = some step ∧
        (state.application draw).Enabled step ∧
        (state.perform draw (.policies action)).application draw =
          (state.application draw).perform step := by
  have database := Calls.database_perform PolicyCall.code (Written.key TableRow.key)
    state.policies action
  have announces : ∀ blocks, (policyModule.perform state.policies action).database =
      state.policies.database ++ blocks → action.persists = blocks := by
    intro blocks same
    exact List.append_cancel_left (database.symm.trans same)
  have pending : ∀ blocks, action.persists = blocks →
      (state.perform draw (.policies action)).pending =
        Multiset.ofList (blocks.flatten.filterMap Written.record?) + state.pending := by
    intro blocks same
    rw [← same]
    rfl
  have silent : (policyModule.perform state.policies action).database = state.policies.database →
      (state.perform draw (.policies action)).pending = state.pending := by
    intro same
    rw [pending [] (announces [] (by rw [List.append_nil]; exact same))]
    exact zero_add _
  rcases (atomic_of_reached reached).seen_step enabled.2.1 with
    ⟨unseen, same⟩ | ⟨step, isSeen, possible, moved⟩
  · left
    refine ⟨by rw [MonolithStep.seen, unseen]; rfl, ?_⟩
    rw [application_of_database same, silent (congrArg Transactions.database same)]
    rfl
  · right
    cases step with
    | start call =>
        have same := CallAction.start_of_seen isSeen
        subst same
        cases call with
        | submit applicationId applicant product sumAssured age =>
            exact ⟨_, rfl, trivial, application_of_submit ..⟩
        | issue accepted policyId => exact absurd enabled.1 (by simp [startsIssue])
    | commit call =>
        refine ⟨.commit (call.write draw), by rw [MonolithStep.seen, isSeen]; rfl, ⟨?_, ?_⟩, ?_⟩
        · exact Multiset.mem_map_of_mem _ possible.1
        · exact ⟨keyFree_of_keysFree possible.2,
            storable_of_persists reached enabled.2.1
              (announces _ (congrArg Transactions.database moved) ▸ List.mem_singleton_self _)⟩
        · refine application_of_commit possible.1 moved ?_ rfl
          rw [pending [call.writes] (announces _ (congrArg Transactions.database moved))]
          rfl
    | giveUp call =>
        refine ⟨.rollback (call.write draw), by rw [MonolithStep.seen, isSeen]; rfl,
          Multiset.mem_map_of_mem _ possible, ?_⟩
        rw [application_of_database moved, silent (congrArg Transactions.database moved),
          Multiset.map_erase_of_mem _ _ possible]
        rfl

theorem seen_step (draw : EnvelopeIds) {step : MonolithStep}
    (reached : policyModule.Reached Stores state.policies)
    (enabled : state.Enabled step) :
    (step.seen draw = none ∧ (state.perform draw step).application draw =
        state.application draw) ∨
      ∃ one, step.seen draw = some one ∧ (state.application draw).Enabled one ∧
        (state.perform draw step).application draw = (state.application draw).perform one := by
  cases step with
  | policies action => exact seen_policies reached enabled
  | issue event policyId =>
      refine .inr ⟨_, rfl, enabled, ?_⟩
      have opened := Calls.underway_open
        ⟨.issue event policyId, (PolicyCall.issue event policyId).code.start, .unopened⟩
        state.policies.running rfl
      have begun : (state.perform draw (.issue event policyId)).policies.seen =
          ⟨.issue event policyId ::ₘ state.policies.seen.underway, state.policies.database⟩ :=
        congrArg₂ Transactions.mk opened rfl
      rw [application_of_database begun, Multiset.map_cons]
      rfl
  | relay record =>
      refine .inr ⟨_, rfl, Multiset.mem_map_of_mem _ enabled, ?_⟩
      have moved : (state.perform draw (.relay record)).application draw =
          (state.modules.enqueue [.ofRecord draw record]).reading
            { state.tables draw with
              pending := (state.pending.erase record).map (Message.ofRecord draw) } := rfl
      rw [moved, Multiset.map_erase_of_mem _ _ enabled]
      rfl
  | relayAgain record => exact .inr ⟨_, rfl, List.mem_map_of_mem enabled, rfl⟩
  | modules step =>
      exact .inr ⟨step, rfl, Application.enabled_reading enabled.1 _ enabled.2,
        (Application.perform_reading enabled.1 _).symm⟩

/-- The application, whose transactions take one step each, is what is seen of the modules on
their database. -/
theorem seen_reached {Allowed : Application → Step → Prop}
    (reached : (monolith draw).Reached (Within draw Allowed) state) :
    AmqpApps.PolicyAdministration.application.Reached Allowed (state.application draw) := by
  apply reached.project_reached (Monolith.application draw)
  · rintro _ rfl
    rfl
  · intro state step before within enabled
    rcases seen_step draw (policies_reached before) enabled with
      ⟨-, same⟩ | ⟨one, isSeen, possible, moved⟩
    · exact .inl same
    · exact .inr ⟨one, within one isSeen, possible, moved⟩

end Monolith

/-! ## What comes of an application -/

namespace Application

/-- Every verdict and every policy is what underwriting makes of an application on record. -/
structure OnRecord (state : Application) : Prop where
  verdicts : ∀ verdict ∈ state.verdicts, ∃ row ∈ state.applications, verdict = row.outcome
  policies : ∀ policy ∈ state.policies, ∃ row ∈ state.applications,
    row.sumAssured ≤ referralThreshold ∧ policy = policyRow row.acceptance policy.id

private theorem OnRecord.step {state : Application} (known : state.OnRecord)
    (carries : state.Carries state.Founded state.FoundedWrite) (step : Step)
    (enabled : state.Enabled step) : (state.perform step).OnRecord := by
  have kept := (state.kept step).1
  have verdicts : ∀ verdict ∈ state.verdicts,
      ∃ row ∈ (state.perform step).applications, verdict = row.outcome := by
    intro verdict member
    rcases known.verdicts verdict member with ⟨row, present, same⟩
    exact ⟨row, kept present, same⟩
  have policies : ∀ policy ∈ state.policies, ∃ row ∈ (state.perform step).applications,
      row.sumAssured ≤ referralThreshold ∧ policy = policyRow row.acceptance policy.id := by
    intro policy member
    rcases known.policies policy member with ⟨row, present, within⟩
    exact ⟨row, kept present, within⟩
  cases step with
  | commit write =>
      cases write with
      | submit row => exact ⟨verdicts, policies⟩
      | issue event policyId messageId =>
          refine ⟨verdicts, ?_⟩
          intro policy member
          rcases List.mem_append.mp member with before | now
          · exact policies policy before
          · rcases carries.written _ enabled.1 with ⟨row, present, accepted⟩
            rcases row.outcome_accepted accepted with ⟨within, acceptance⟩
            rw [List.mem_singleton.mp now, acceptance]
            exact ⟨row, kept present, within, rfl⟩
  | publish stage =>
      refine ⟨?_, policies⟩
      intro verdict member
      rcases List.mem_append.mp member with before | now
      · exact verdicts verdict before
      · rcases (carries.staged stage enabled.1).1 with ⟨row, present, stems⟩
        rcases stage with ⟨message, out⟩
        cases message with
        | decide priced =>
            have same : priced = price (checkRegister row.submitted) := stems
            rw [List.mem_singleton.mp now, same]
            exact ⟨row, present, rfl⟩
        | _ => cases now
  | deliver message policyId messageId => cases message <;> exact ⟨verdicts, policies⟩
  | return_ stage =>
      rw [perform_return] at *
      exact ⟨verdicts, policies⟩
  | _ => exact ⟨verdicts, policies⟩

private theorem OnRecord.of_reached {state : Application}
    (reached : application.Reached TransitionSystem.anyStep state) : state.OnRecord := by
  apply reached.invariant_using _ OnRecord fun _ => carries_founded
  · rintro _ rfl
    exact ⟨nofun, nofun⟩
  · intro state step carries known _ enabled
    exact known.step carries step enabled

end Application

private theorem published_onRecord {state : Application}
    (reached : application.Reached TransitionSystem.anyStep state) :
    ∀ charge ∈ state.billing.published, ∃ row ∈ state.applications,
      row.sumAssured ≤ referralThreshold ∧
        ∃ policyId, charge = ⟨⟨policyId, row.applicant, row.ratedPremium⟩, row.id⟩ := by
  have own : billing.Reached TransitionSystem.anyStep state.billing :=
    billing_reached (fun _ _ _ => trivial) (fun _ _ _ => trivial) reached
  have tallied : state.billing.Tallied := .of_reached own
  intro charge announced
  rcases tallied.published charge announced with ⟨taken, member, same⟩
  rcases ((Application.carries_founded reached).billed.2 taken member).1 with
    ⟨row, present, accepted, outcome, issued⟩
  rcases row.outcome_accepted outcome with ⟨within, acceptance⟩
  refine ⟨row, present, within, taken.2.policyId, ?_⟩
  rw [same, issued, acceptance]
  rfl

namespace Monolith

variable {draw : EnvelopeIds} {state : Monolith}

/-- A call of `submit` for the application has committed. -/
def Submitted (state : Monolith) (row : ApplicationRow) : Prop :=
  state.policies.Committed (.submit row.id row.applicant row.product row.sumAssured row.age)

private theorem submitted_of_known (reached : policyModule.Reached Stores state.policies)
    {row : ApplicationRow} (known : row ∈ (state.application draw).applications) :
    state.Submitted row := by
  rcases List.mem_filterMap.mp known with ⟨held, present, its⟩
  rw [Calls.rows] at present
  rcases List.mem_filterMap.mp present with ⟨written, inside, isRow⟩
  rcases List.mem_flatten.mp inside with ⟨block, persisted, among⟩
  rcases (atomic_of_reached reached).committed persisted with ⟨call, committed, same⟩
  rw [same] at among
  rcases List.mem_cons.mp among with first | other
  · rw [first] at isRow
    cases isRow
    cases call with
    | submit applicationId applicant product sumAssured age =>
        cases its
        exact committed
    | issue accepted policyId => cases its
  · rw [List.mem_singleton.mp other] at isRow
    cases isRow

theorem known_of_returned (draw : EnvelopeIds)
    (reached : policyModule.Reached Stores state.policies)
    {ended : Ended PolicyCall (Written TableRow (OutboxRecord Announcement))}
    (member : ended ∈ state.policies.ended) (returned : ended.outcome = .returned)
    {row : ApplicationRow} (submits : ended.call.row = .application row) :
    row ∈ (state.application draw).applications := by
  have present := (atomic_of_reached reached).of_returned member returned
  refine List.mem_filterMap.mpr ⟨.application row, ?_, rfl⟩
  refine List.mem_filterMap.mpr ⟨.row (.application row), ?_, rfl⟩
  exact List.mem_flatten.mpr ⟨_, present, by simp [PolicyCall.writes, submits]⟩

private theorem reached_any {Allowed : Monolith → MonolithStep → Prop}
    (reached : (monolith draw).Reached Allowed state) :
    AmqpApps.PolicyAdministration.application.Reached TransitionSystem.anyStep
      (state.application draw) :=
  seen_reached (reached.mono fun _ _ _ _ _ => trivial)

end Monolith

/-- Whichever operation raises, of whichever call, and whatever else fails: no verdict, policy
or premium comes of an application unless a call of `submit` has committed it, and then they
are those of the rating table. -/
theorem nothing_unsubmitted {draw : EnvelopeIds} {Allowed : Monolith → MonolithStep → Prop}
    {state : Monolith} (reached : (monolith draw).Reached Allowed state) :
    (∀ verdict ∈ state.modules.verdicts, ∃ row, state.Submitted row ∧ verdict = row.outcome) ∧
    (∀ policy ∈ state.policies.rows.filterMap TableRow.policy?, ∃ row, state.Submitted row ∧
      row.sumAssured ≤ referralThreshold ∧ policy = policyRow row.acceptance policy.id) ∧
    ∀ charge ∈ state.modules.billing.published, ∃ row, state.Submitted row ∧
      row.sumAssured ≤ referralThreshold ∧
        ∃ policyId, charge = ⟨⟨policyId, row.applicant, row.ratedPremium⟩, row.id⟩ := by
  have own := Monolith.policies_reached reached
  have seen := Monolith.reached_any reached
  have onRecord : (state.application draw).OnRecord := .of_reached seen
  refine ⟨?_, ?_, ?_⟩
  · intro verdict member
    rcases onRecord.verdicts verdict member with ⟨row, known, same⟩
    exact ⟨row, Monolith.submitted_of_known own known, same⟩
  · intro policy member
    rcases onRecord.policies policy member with ⟨row, known, within⟩
    exact ⟨row, Monolith.submitted_of_known own known, within⟩
  · intro charge member
    rcases published_onRecord seen charge member with ⟨row, known, within⟩
    exact ⟨row, Monolith.submitted_of_known own known, within⟩

def drawn : EnvelopeIds := fun record =>
  match record.event with
  | .submitted event => event.applicationId
  | .issued event => event.policyId

def applying : PolicyCall :=
  .submit applicant.id applicant.applicant applicant.product applicant.sumAssured applicant.age

def going (call : PolicyCall) (returns : List Bool) : List MonolithStep :=
  (steps ⟨call, call.code.start, .unopened⟩ returns).map .policies

def appliedTwice : List MonolithStep :=
  .policies (.start applying) :: going applying [true, true, true, false, true, true] ++
    .policies (.start applying) :: going applying [true, true, true, true, true, true] ++
      [.relay applying.record]

/-- The first policy cannot be committed, and the acceptance is handed out again. -/
theorem one_premium_submitted : ∃ state : Monolith,
    state.policies.ended.map Ended.outcome = [.raised, .returned, .raised, .returned] ∧
      state.modules.billing.published.length = 1 ∧
      ∀ charge ∈ state.modules.billing.published, ∃ row, state.Submitted row ∧
        row.sumAssured ≤ referralThreshold ∧
          ∃ policyId, charge = ⟨⟨policyId, row.applicant, row.ratedPremium⟩, row.id⟩ := by
  have reached := TransitionSystem.Reached.of_isSome_run (monolith drawn)
    TransitionSystem.anyStep (.start rfl)
    (appliedTwice ++ underwriting.map .modules ++
      .issue acceptance "POL-1" ::
        going (.issue acceptance "POL-1") [true, true, true, true, true, false, true, true] ++
      .modules (.duplicate (.accepted acceptance)) :: .issue acceptance "POL-2" ::
        going (.issue acceptance "POL-2") [true, true, true, true, true, true, true] ++
      .relay (PolicyCall.issue acceptance "POL-2").record ::
        (premium "POL-2" "POL-2").map .modules)
    (by decide +kernel)
  exact ⟨_, by decide +kernel, by decide +kernel, (nothing_unsubmitted reached).2.2⟩

end AmqpApps.PolicyAdministration
