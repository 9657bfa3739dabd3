import AmqpApps.PolicyAdministration.Flows

/-! # From end to end

When nothing is on its way any more, every application on record has come out:
as a refusal, or as an acceptance with a policy and a premium, all at the price
of the rating table.
-/

namespace AmqpApps.PolicyAdministration

/-! ## Integers that SQLite can hold -/

/-- Every message is delivered and handled once, and no publish fails. An `INSERT` that cannot
be made raises. -/
def HandledOnce (state : Application) : Step → Prop
  | .rollback (.issue event policyId _) => ¬(policyRow event policyId).Storable
  | step => Faultless state step

instance (state : Application) (step : Step) : Decidable (HandledOnce state step) := by
  unfold HandledOnce
  split <;> infer_instance

/-- The premium fits its column, if one is due. -/
def ApplicationRow.Payable (row : ApplicationRow) : Prop :=
  row.sumAssured ≤ referralThreshold → FitsInteger row.ratedPremium

instance (row : ApplicationRow) : Decidable row.Payable := inferInstanceAs (Decidable (_ → _))

private theorem HandledOnce.cases {step : Step} (handled : HandledOnce state step) :
    Faultless state step ∨ ∃ event policyId messageId,
      step = .rollback (.issue event policyId messageId) ∧
        ¬(policyRow event policyId).Storable := by
  unfold HandledOnce at handled
  split at handled
  · exact .inr ⟨_, _, _, rfl, handled⟩
  · exact .inl handled

/-! ## The counters -/

def Verdict.isAccepted : Verdict → Bool
  | accepted _ => true
  | declined _ => false

def Verdict.isDeclined : Verdict → Bool
  | accepted _ => false
  | declined _ => true

def Verdict.applicationId : Verdict → String
  | accepted event => event.applicationId
  | declined event => event.applicationId

def Stage.uncounted (stage : Stage) : Multiset Verdict :=
  if stage.out then Multiset.ofList stage.message.verdicts else 0

namespace Application

variable {state : Application}

private theorem count_verdicts (state : Application) (message : Message) :
    (state.count message.verdicts).accepted =
      state.accepted + howMany Verdict.isAccepted (Multiset.ofList message.verdicts) ∧
    (state.count message.verdicts).declined =
      state.declined + howMany Verdict.isDeclined (Multiset.ofList message.verdicts) := by
  cases message with
  | decide priced =>
      cases verdict : decideOn priced <;>
        simp only [Message.verdicts, verdict, count, howMany_coe, countP_only,
          Verdict.isAccepted, Verdict.isDeclined] <;>
        exact ⟨rfl, rfl⟩
  | _ => exact ⟨rfl, rfl⟩

structure Counting (state : Application) : Prop where
  accepted : howMany Verdict.isAccepted (Multiset.ofList state.verdicts) =
    state.accepted + howMany Verdict.isAccepted (state.stages.bind Stage.uncounted)
  declined : howMany Verdict.isDeclined (Multiset.ofList state.verdicts) =
    state.declined + howMany Verdict.isDeclined (state.stages.bind Stage.uncounted)
  issued : state.issued = state.policies.length

private theorem Counting.step (counting : Counting state) (step : Step)
    (faultless : Faultless state step) (enabled : state.Enabled step) :
    Counting (state.perform step) := by
  have accepted := counting.accepted
  have declined := counting.declined
  cases step with
  | commit write =>
      cases write with
      | submit row => exact ⟨accepted, declined, counting.issued⟩
      | issue event policyId messageId =>
          refine ⟨accepted, declined, ?_⟩
          simp only [perform, insert, counting.issued, List.length_append, List.length_singleton]
  | deliver message policyId messageId =>
      have idle : Stage.uncounted ⟨message, false⟩ = 0 := rfl
      cases message with
      | accepted event => exact ⟨accepted, declined, counting.issued⟩
      | issued envelopeId event => exact ⟨accepted, declined, counting.issued⟩
      | _ =>
          refine ⟨?_, ?_, counting.issued⟩ <;>
            simp only [perform, handle, Multiset.cons_bind, idle, zero_add] <;>
            assumption
  | publish stage =>
      have silent : stage.uncounted = 0 := if_neg (by simp [enabled.2])
      have sent : ({ stage with out := true } : Stage).uncounted =
        Multiset.ofList stage.message.verdicts := rfl
      rw [bind_erase Stage.uncounted enabled.1, silent, zero_add] at accepted declined
      refine ⟨?_, ?_, counting.issued⟩ <;>
        simp only [perform, enqueue, ← Multiset.coe_add, Multiset.cons_bind, howMany_add, sent] <;>
        omega
  | return_ stage =>
      have sent : stage.uncounted = Multiset.ofList stage.message.verdicts := if_pos enabled.2
      rcases state.count_verdicts stage.message with ⟨moreAccepted, moreDeclined⟩
      rw [bind_erase Stage.uncounted enabled.1, sent, howMany_add] at accepted declined
      rw [perform_return]
      refine ⟨?_, ?_, counting.issued⟩ <;> simp only <;> omega
  | fail stage => exact faultless.elim
  | _ => exact ⟨accepted, declined, counting.issued⟩

/-! ## All the flows at once -/

structure Flowing (state : Application) : Prop where
  tabled : Tabled state
  staffed : Staffed state
  deciding : Deciding state
  covering : Covering state
  identified : Identified state
  charging : Charging state
  counting : Counting state

private theorem Flowing.initial : Flowing Application.initial where
  tabled := ⟨List.nodup_nil, fun _ => rfl⟩
  staffed _ member := absurd member (Multiset.notMem_zero _)
  deciding := rfl
  covering := rfl
  identified := ⟨Multiset.nodup_zero, fun _ member => absurd member (Multiset.notMem_zero _)⟩
  charging := rfl
  counting := ⟨rfl, rfl, rfl⟩

private theorem Flowing.step (flowing : Flowing state) (smooth : state.billing.Smooth) (step : Step)
    (faultless : Faultless state step) (enabled : state.Enabled step) :
    Flowing (state.perform step) where
  tabled := flowing.tabled.step step enabled
  staffed := flowing.staffed.step step enabled
  deciding := flowing.deciding.step step faultless enabled
  covering := flowing.covering.step flowing.staffed step faultless enabled
  identified := flowing.identified.step smooth flowing.staffed step faultless enabled
  charging := flowing.charging.step flowing.identified smooth flowing.staffed step faultless enabled
  counting := flowing.counting.step step faultless enabled

private theorem smooth_of_reached (reached : application.Reached Faultless state) :
    state.billing.Smooth :=
  .of_reached (billing_reached (fun _ _ faultless => faultless.smoothly)
    (fun _ _ _ => trivial) reached)

theorem Flowing.of_reached (reached : application.Reached Faultless state) : Flowing state := by
  apply reached.invariant_using _ Flowing fun state => smooth_of_reached
  · intro state first
    cases first
    exact .initial
  · intro state step smooth flowing faultless enabled
    exact flowing.step smooth step faultless enabled

/-! ## Where every premium fits -/

theorem storable_of_payable (reached : application.Reached TransitionSystem.anyStep state)
    (payable : ∀ row ∈ state.applications, row.Payable) {event : ApplicationAccepted}
    {policyId messageId : String} (member : .issue event policyId messageId ∈ state.writes) :
    (policyRow event policyId).Storable := by
  have founded := (carries_founded reached).written _ member
  rcases founded with ⟨row, known, accepted⟩
  rcases row.outcome_accepted accepted with ⟨within, acceptance⟩
  rw [acceptance]
  exact payable row known within

/-- Where every premium fits, no policy is rolled back. -/
theorem faultless_of_payable (reached : application.Reached HandledOnce state)
    (payable : ∀ row ∈ state.applications, row.Payable) :
    application.Reached Faultless state := by
  induction reached with
  | start initial => exact .start initial
  | @next state step before handled enabled induction =>
      have earlier : ∀ row ∈ state.applications, row.Payable :=
        fun row known => payable row ((state.kept step).1 known)
      rcases handled.cases with faultless | ⟨event, policyId, messageId, rolls, large⟩
      · exact .next step (induction earlier) faultless enabled
      · subst rolls
        have fits := storable_of_payable (before.mono fun _ _ _ => trivial) earlier enabled
        exact absurd fits large

/-! ## When everything has come out -/

/-- The outbox and the queues are empty and no handler is at work. Callers of
`submit` may be about to record an application. -/
structure Quiet (state : Application) : Prop where
  pending : state.pending = 0
  queues : state.queues = 0
  stages : state.stages = 0
  writes : ∀ write ∈ state.writes, ∃ row, write = .submit row
  calls : state.billing.calls = 0

private theorem Quiet.carrying (quiet : Quiet state) (part : Message → Multiset Piece) :
    state.carrying part = 0 := by
  simp [Application.carrying, quiet.pending, quiet.queues, quiet.stages]

private theorem Quiet.covers (quiet : Quiet state) : state.writes.bind Write.covers = 0 := by
  apply Multiset.eq_zero_of_forall_notMem
  intro cover member
  rcases Multiset.mem_bind.mp member with ⟨write, waiting, covered⟩
  rcases quiet.writes write waiting with ⟨row, submits⟩
  rw [submits] at covered
  exact Multiset.notMem_zero cover covered

private theorem Flowing.verdicts (flowing : Flowing state) (quiet : Quiet state) :
    Multiset.ofList state.verdicts =
      (Multiset.ofList state.applications).bind fun row => {row.outcome} := by
  have deciding : (Multiset.ofList state.applications).map ApplicationRow.outcome =
    Multiset.ofList state.verdicts + state.carrying Message.decision := flowing.deciding
  rw [quiet.carrying, add_zero] at deciding
  rw [← deciding, Multiset.bind_singleton]

private theorem Flowing.policies (flowing : Flowing state) (quiet : Quiet state) :
    (Multiset.ofList state.policies).map PolicyRow.cover =
      (Multiset.ofList state.applications).bind fun row => row.outcome.covers := by
  have covering : (Multiset.ofList state.verdicts).bind Verdict.covers =
    (Multiset.ofList state.policies).map PolicyRow.cover + state.carrying Message.covers +
      state.writes.bind Write.covers := flowing.covering
  rw [quiet.carrying, quiet.covers, add_zero, add_zero, flowing.verdicts quiet,
    Multiset.bind_assoc] at covering
  rw [← covering]
  exact Multiset.bind_congr fun row _ => Multiset.singleton_bind _ _

private theorem Flowing.published (flowing : Flowing state) (quiet : Quiet state) :
    Multiset.ofList state.billing.published =
      (Multiset.ofList state.policies).map PolicyRow.charged := by
  have charging : (Multiset.ofList state.policies).map PolicyRow.charged =
    Multiset.ofList state.billing.published + state.billing.calls.bind Charge.due +
      state.carrying Message.premiums := flowing.charging
  rw [quiet.carrying, quiet.calls, Multiset.zero_bind, add_zero, add_zero] at charging
  exact charging.symm

end Application

/-! ## Each application -/

private theorem ApplicationRow.outcome_applicationId (row : ApplicationRow) :
    row.outcome.applicationId = row.id := by
  rw [outcome_eq]
  split <;> rfl

private theorem ApplicationRow.covers_applicationId (row : ApplicationRow) :
    ∀ cover ∈ row.outcome.covers, cover.applicationId = row.id := by
  intro cover member
  rw [outcome_eq] at member
  split at member
  · rw [Multiset.mem_singleton.mp member]
    rfl
  · exact absurd member (Multiset.notMem_zero cover)

private theorem filter_eq_singleton {Item : Type u} {items : List Item} {kind : Item → Prop}
    [DecidablePred kind] {item : Item} (only : (Multiset.ofList items).filter kind = {item}) :
    items.filter (fun item => kind item) = [item] := by
  rw [Multiset.filter_coe, ← Multiset.coe_singleton] at only
  exact List.perm_singleton.mp (Multiset.coe_eq_coe.mp only)

namespace Application

variable {state : Application} {row : ApplicationRow}

private theorem Flowing.distinct (flowing : Flowing state) :
    ((Multiset.ofList state.applications).map ApplicationRow.id).Nodup :=
  Multiset.coe_nodup.mpr flowing.tabled.distinct

private theorem Flowing.verdict (flowing : Flowing state) (quiet : Quiet state)
    (known : row ∈ state.applications) :
    state.verdicts.filter (fun verdict => verdict.applicationId = row.id) = [row.outcome] := by
  apply filter_eq_singleton
  rw [flowing.verdicts quiet]
  apply filter_bind_key _ flowing.distinct (Multiset.mem_coe.mpr known)
  intro other verdict member
  rw [Multiset.mem_singleton.mp member]
  exact other.outcome_applicationId

private theorem Flowing.policy (flowing : Flowing state) (quiet : Quiet state)
    (known : row ∈ state.applications) :
    ((Multiset.ofList state.policies).filter fun policy =>
      policy.applicationId = row.id).map PolicyRow.cover = row.outcome.covers := by
  have chosen := filter_bind_key ApplicationRow.covers_applicationId flowing.distinct
    (Multiset.mem_coe.mpr known)
  rw [← flowing.policies quiet, Multiset.filter_map] at chosen
  exact chosen

private theorem Flowing.premium (flowing : Flowing state) (quiet : Quiet state)
    (row : ApplicationRow) :
    (Multiset.ofList state.billing.published).filter (fun charge => charge.correlation = row.id) =
      ((Multiset.ofList state.policies).filter fun policy =>
        policy.applicationId = row.id).map PolicyRow.charged := by
  rw [flowing.published quiet, Multiset.filter_map]
  rfl

/-- An application above the limit leaves a refusal and nothing else. -/
theorem Flowing.referred (flowing : Flowing state) (quiet : Quiet state)
    (known : row ∈ state.applications) (above : referralThreshold < row.sumAssured) :
    state.verdicts.filter (fun verdict => verdict.applicationId = row.id) =
      [.declined row.declination] ∧
    state.policies.filter (fun policy => policy.applicationId = row.id) = [] ∧
    state.billing.published.filter (fun charge => charge.correlation = row.id) = [] := by
  have outcome : row.outcome = .declined row.declination := by
    rw [row.outcome_eq, if_neg (not_le.mpr above)]
  have policy := flowing.policy quiet known
  rw [outcome, Verdict.covers, Multiset.map_eq_zero] at policy
  have premium := flowing.premium quiet row
  rw [policy, Multiset.map_zero] at premium
  refine ⟨?_, ?_, ?_⟩
  · rw [flowing.verdict quiet known, outcome]
  · rw [Multiset.filter_coe] at policy
    exact (Multiset.coe_eq_zero _).mp policy
  · rw [Multiset.filter_coe] at premium
    exact (Multiset.coe_eq_zero _).mp premium

/-- One within it leaves an acceptance, a policy and a premium, all alike. -/
theorem Flowing.insured (flowing : Flowing state) (quiet : Quiet state)
    (known : row ∈ state.applications) (within : row.sumAssured ≤ referralThreshold) :
    ∃ policyId,
      state.verdicts.filter (fun verdict => verdict.applicationId = row.id) =
        [.accepted row.acceptance] ∧
      state.policies.filter (fun policy => policy.applicationId = row.id) =
        [⟨policyId, row.id, row.applicant, row.product, row.ratedPremium⟩] ∧
      state.billing.published.filter (fun charge => charge.correlation = row.id) =
        [⟨⟨policyId, row.applicant, row.ratedPremium⟩, row.id⟩] := by
  have outcome : row.outcome = .accepted row.acceptance := by
    rw [row.outcome_eq, if_pos within]
  have policy := flowing.policy quiet known
  rw [outcome, Verdict.covers] at policy
  rcases Multiset.map_eq_singleton.mp policy with ⟨written, only, cover⟩
  have same : written = ⟨written.id, row.id, row.applicant, row.product, row.ratedPremium⟩ := by
    rcases written with ⟨id, applicationId, applicant, product, premium⟩
    cases cover
    rfl
  have premium := flowing.premium quiet row
  rw [only, Multiset.map_singleton, same] at premium
  rw [same] at only
  refine ⟨written.id, ?_, filter_eq_singleton only, filter_eq_singleton premium⟩
  rw [flowing.verdict quiet known, outcome]

private theorem Flowing.counted (flowing : Flowing state) (quiet : Quiet state)
    {kind : Verdict → Bool} {given : ApplicationRow → Prop} [DecidablePred given]
    (agrees : ∀ row, kind row.outcome = decide (given row)) :
    howMany kind (Multiset.ofList state.verdicts) =
      state.applications.countP fun row => given row := by
  have same : (fun row : ApplicationRow => kind row.outcome) =
    fun row => decide (given row) := funext agrees
  rw [flowing.verdicts quiet, Multiset.bind_singleton, Multiset.map_coe, howMany_coe,
    List.countP_map, Function.comp_def, same]

private theorem Flowing.accepted (flowing : Flowing state) (quiet : Quiet state) :
    state.accepted = state.applications.countP fun row => row.sumAssured ≤ referralThreshold := by
  have counted := flowing.counting.accepted
  rw [quiet.stages, Multiset.zero_bind, howMany_zero, add_zero] at counted
  rw [← counted]
  apply flowing.counted quiet
  intro row
  rw [row.outcome_eq]
  by_cases within : row.sumAssured ≤ referralThreshold <;> simp [within, Verdict.isAccepted]

private theorem Flowing.declined (flowing : Flowing state) (quiet : Quiet state) :
    state.declined = state.applications.countP fun row => referralThreshold < row.sumAssured := by
  have counted := flowing.counting.declined
  rw [quiet.stages, Multiset.zero_bind, howMany_zero, add_zero] at counted
  rw [← counted]
  apply flowing.counted quiet
  intro row
  rw [row.outcome_eq]
  by_cases within : row.sumAssured ≤ referralThreshold
  · simp [within, Verdict.isDeclined]
  · simp [within, Verdict.isDeclined, not_le.mp within]

private theorem Flowing.policies_length (flowing : Flowing state) (quiet : Quiet state) :
    state.policies.length =
      state.applications.countP fun row => row.sumAssured ≤ referralThreshold := by
  have policies := congrArg Multiset.card (flowing.policies quiet)
  rw [Multiset.card_map, Multiset.coe_card, Multiset.card_bind, Multiset.map_coe,
    Multiset.sum_coe] at policies
  rw [policies]
  induction state.applications with
  | nil => rfl
  | cons row rows induction =>
      have mine : row.outcome.covers.card =
          if row.sumAssured ≤ referralThreshold then 1 else 0 := by
        rw [row.outcome_eq]
        split <;> rfl
      simp only [List.map_cons, List.sum_cons, Function.comp_apply, List.countP_cons,
        decide_eq_true_eq, mine] at induction ⊢
      omega

private theorem Flowing.charges (flowing : Flowing state) (smooth : state.billing.Smooth)
    (quiet : Quiet state) : state.billing.charges.Perm (state.policies.map PolicyRow.id) := by
  have charges := smooth.charges
  rw [quiet.calls, Multiset.zero_bind, add_zero, flowing.published quiet, Multiset.map_map,
    Multiset.map_coe] at charges
  exact Multiset.coe_eq_coe.mp charges

end Application

def referredApplicant : ApplicationRow :=
  ⟨"APP-2", "Well KNOWN", "WHOLE-LIFE", 600000, 30⟩

def deciding (row : ApplicationRow) : List Step :=
  let submission := row.submitted
  let priced := price (checkRegister submission)
  [.deliver (.submitted submission) "" "", .publish ⟨.submitted submission, false⟩,
    .return_ ⟨.submitted submission, true⟩, .deliver (.register submission) "" "",
    .publish ⟨.register submission, false⟩, .return_ ⟨.register submission, true⟩,
    .deliver (.price (checkRegister submission)) "" "",
    .publish ⟨.price (checkRegister submission), false⟩,
    .return_ ⟨.price (checkRegister submission), true⟩, .deliver (.decide priced) "" "",
    .publish ⟨.decide priced, false⟩, .return_ ⟨.decide priced, true⟩]

/-- So old that the premium, unlike the age, does not fit 64 bits. -/
def elder : ApplicationRow := ⟨"APP-1", "A. Applicant", "TERM-LIFE", 1000, 5 * 10 ^ 18⟩

end AmqpApps.PolicyAdministration
