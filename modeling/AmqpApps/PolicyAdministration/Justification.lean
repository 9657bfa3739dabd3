import AmqpApps.PolicyAdministration.OnePremium

/-! # Every charge is justified

What is charged for goes back, through a policy, to an application on record
that underwriting would accept again. No message is ever anything but what the
handlers make of such an application, so this holds whatever is handed out
twice, out of order or not at all.
-/

namespace AmqpApps.PolicyAdministration

/-! ## The rating table -/

def ApplicationRow.ratedPremium (row : ApplicationRow) : Int :=
  row.sumAssured / 1000 + max 0 (row.age - 30) * 2 +
    if "known".toList <:+: row.applicant.toList.map lower then row.sumAssured / 1000 / 2 else 0

def ApplicationRow.outcome (row : ApplicationRow) : Verdict :=
  decideOn (price (checkRegister row.submitted))

def ApplicationRow.acceptance (row : ApplicationRow) : ApplicationAccepted :=
  ⟨row.id, row.applicant, row.product, row.sumAssured, row.ratedPremium⟩

def ApplicationRow.declination (row : ApplicationRow) : ApplicationDeclined :=
  ⟨row.id, row.applicant, s!"sum assured of {row.sumAssured} is above the automatic limit"⟩

private theorem price_premium (row : ApplicationRow) :
    (price (checkRegister row.submitted)).annualPremium = row.ratedPremium := by
  rw [price, ApplicationRow.ratedPremium]
  by_cases known : "known".toList <:+: row.applicant.toList.map lower
  · have found : (checkRegister row.submitted).knownToRegister = true := decide_eq_true known
    rw [if_pos known, found, if_pos rfl]
    rfl
  · have missed : (checkRegister row.submitted).knownToRegister = false := decide_eq_false known
    rw [if_neg known, missed, if_neg Bool.false_ne_true]
    rfl

theorem ApplicationRow.outcome_eq (row : ApplicationRow) :
    row.outcome =
      if row.sumAssured ≤ referralThreshold then .accepted row.acceptance
      else .declined row.declination := by
  have premium := price_premium row
  rw [outcome, decideOn]
  by_cases within : row.sumAssured ≤ referralThreshold
  · have kept : (price (checkRegister row.submitted)).refer = false :=
      decide_eq_false (not_lt.mpr within)
    rw [kept, if_neg Bool.false_ne_true, if_pos within, premium]
    rfl
  · have referred : (price (checkRegister row.submitted)).refer = true :=
      decide_eq_true (not_le.mp within)
    rw [referred, if_pos rfl, if_neg within]
    rfl

theorem ApplicationRow.outcome_accepted {row : ApplicationRow} {event : ApplicationAccepted}
    (accepted : row.outcome = .accepted event) :
    row.sumAssured ≤ referralThreshold ∧ event = row.acceptance := by
  rw [outcome_eq] at accepted
  split at accepted
  · rename_i within
    cases accepted
    exact ⟨within, rfl⟩
  · cases accepted

/-! ## Where a message stems from -/

/-- What the handlers make of an application, hop by hop. -/
def Message.StemsFrom (row : ApplicationRow) : Message → Prop
  | submitted event => event = row.submitted
  | register application => application = row.submitted
  | price checked => checked = checkRegister row.submitted
  | decide priced => priced = PolicyAdministration.price (checkRegister row.submitted)
  | accepted event => row.outcome = .accepted event
  | issued _ event => ∃ accepted, row.outcome = .accepted accepted ∧
      event = policyIssued accepted event.policyId

private theorem Message.StemsFrom.next {row : ApplicationRow} {message : Message}
    (stems : message.StemsFrom row) : ∀ next ∈ message.next, next.StemsFrom row := by
  intro next member
  cases message with
  | submitted event =>
      rw [List.mem_singleton.mp member]
      exact stems
  | register application =>
      rw [List.mem_singleton.mp member]
      exact congrArg checkRegister stems
  | price checked =>
      rw [List.mem_singleton.mp member]
      exact congrArg PolicyAdministration.price stems
  | decide priced =>
      have same : priced = PolicyAdministration.price (checkRegister row.submitted) := stems
      rw [Message.next] at member
      cases verdict : decideOn priced with
      | accepted event =>
          rw [verdict] at member
          rw [List.mem_singleton.mp member, same] at *
          exact verdict
      | declined event => simp [verdict] at member
  | accepted event => cases member
  | issued messageId event => cases member

namespace Application

def Founded (state : Application) (message : Message) : Prop :=
  (∃ row ∈ state.applications, message.StemsFrom row) ∧
    ∀ messageId event, message = .issued messageId event →
      ∃ policy ∈ state.policies, policy = ⟨event.policyId, event.applicationId,
        event.applicant, event.product, event.annualPremium⟩

def FoundedWrite (state : Application) : Write → Prop
  | .submit _ => True
  | .issue event _ _ => ∃ row ∈ state.applications, row.outcome = .accepted event

private theorem founded_closed (state : Application) : Closed state.Founded state.FoundedWrite where
  next message founded next member := by
    rcases founded.1 with ⟨row, known, stems⟩
    refine ⟨⟨row, known, stems.next next member⟩, ?_⟩
    intro messageId event same
    cases message <;> simp only [Message.next] at member
    case decide priced =>
      cases verdict : decideOn priced <;> simp [verdict, same] at member
    all_goals simp [same] at member
  issue event founded policyId messageId := founded.1
  submit row := trivial

theorem carries_founded {state : Application}
    (reached : application.Reached TransitionSystem.anyStep state) :
    state.Carries state.Founded state.FoundedWrite := by
  apply reached.invariant fun state => state.Carries state.Founded state.FoundedWrite
  · intro state first
    cases first
    exact .initial
  · intro state step carries _ enabled
    rcases state.kept step with ⟨applications, policies, -⟩
    have before : state.Carries (state.perform step).Founded (state.perform step).FoundedWrite := by
      apply carries.mono
      · intro message founded
        rcases founded with ⟨⟨row, known, stems⟩, announced⟩
        refine ⟨⟨row, applications known, stems⟩, ?_⟩
        intro messageId event same
        rcases announced messageId event same with ⟨policy, held, fields⟩
        exact ⟨policy, policies held, fields⟩
      · intro write founded
        cases write with
        | submit row => trivial
        | issue event policyId messageId =>
            rcases founded with ⟨row, known, accepted⟩
            exact ⟨row, applications known, accepted⟩
    refine before.step (founded_closed _) step enabled ?_
    intro write member committed
    rw [committed]
    cases write with
    | submit row =>
        refine ⟨⟨row, List.mem_append_right _ (List.mem_singleton_self row), rfl⟩, ?_⟩
        intro messageId event same
        cases same
    | issue event policyId messageId =>
        rcases carries.written _ member with ⟨row, known, accepted⟩
        refine ⟨⟨row, known, event, accepted, rfl⟩, ?_⟩
        intro sent announced same
        cases same
        exact ⟨policyRow event policyId,
          List.mem_append_right _ (List.mem_singleton_self _), rfl⟩

end Application

/-! ## What billing publishes -/

structure Billing.Tallied (state : Billing) : Prop where
  recorded : state.charges = state.history.taken.map fun taken => taken.2.policyId
  charged : ∀ call ∈ state.calls, call.await ≠ .claim →
    (call.messageId, call.policy) ∈ state.history.taken
  published : ∀ charge ∈ state.published, ∃ taken ∈ state.history.taken,
    charge = premiumCharged taken.2

namespace Billing.Tallied

variable {state : Billing} {call : Charge}

private theorem initial : Billing.initial.Tallied where
  recorded := rfl
  charged _ member := absurd member (Multiset.notMem_zero _)
  published _ member := nomatch member

private theorem charged_goOn (tallied : state.Tallied)
    (mine : (call.messageId, call.policy) ∈ state.history.taken) (await : ChargeAwait) :
    ∀ other ∈ { call with await } ::ₘ state.calls.erase call, other.await ≠ .claim →
      (other.messageId, other.policy) ∈ state.history.taken :=
  forall_cons_erase (fun _ => mine) tallied.charged

private theorem charged_leave (tallied : state.Tallied) :
    ∀ other ∈ state.calls.erase call, other.await ≠ .claim →
      (other.messageId, other.policy) ∈ state.history.taken :=
  fun other member => tallied.charged other (Multiset.mem_of_mem_erase member)

private theorem claim (tallied : state.Tallied) : (state.perform (.claim call)).Tallied := by
  cases held : state.seen call.messageId with
  | some seen =>
      simp only [Billing.perform, held]
      exact ⟨tallied.recorded, tallied.charged_leave, tallied.published⟩
  | none =>
      simp only [Billing.perform, held]
      refine ⟨?_, ?_, ?_⟩
      · simp [goOn, charge, mark, tallied.recorded]
      · intro other member later
        rcases Multiset.mem_cons.mp member with same | another
        · rw [same]
          exact List.mem_append_right _ (List.mem_singleton_self _)
        · exact List.mem_append_left _
            (tallied.charged other (Multiset.mem_of_mem_erase another) later)
      · intro published member
        rcases tallied.published published member with ⟨taken, before, same⟩
        exact ⟨taken, List.mem_append_left _ before, same⟩

private theorem step (tallied : state.Tallied) (action : BillingAction)
    (enabled : state.Enabled action) : (state.perform action).Tallied := by
  have mine : ∀ call ∈ state.calls, call.await ≠ .claim →
      (call.messageId, call.policy) ∈ state.history.taken := tallied.charged
  cases action with
  | deliver messageId policy =>
      refine ⟨tallied.recorded, ?_, tallied.published⟩
      intro other member later
      rcases Multiset.mem_cons.mp member with new | old
      · exact absurd (congrArg Charge.await new) later
      · exact tallied.charged other old later
  | claim call => exact tallied.claim
  | publish call =>
      have charged := mine call enabled.1 (by rw [enabled.2]; simp)
      refine ⟨tallied.recorded, tallied.charged_goOn charged _, ?_⟩
      intro published member
      rcases List.mem_append.mp member with old | new
      · exact tallied.published published old
      · exact ⟨_, charged, List.mem_singleton.mp new⟩
  | sent call =>
      have charged := mine call enabled.1 (by rw [enabled.2]; simp)
      exact ⟨tallied.recorded, tallied.charged_goOn charged _, tallied.published⟩
  | raise call =>
      have charged := mine call enabled.1 (by rcases enabled.2 with at_ | at_ <;> simp [at_])
      exact ⟨tallied.recorded, tallied.charged_goOn charged _, tallied.published⟩
  | confirm call => exact ⟨tallied.recorded, tallied.charged_leave, tallied.published⟩
  | release call => exact ⟨tallied.recorded, tallied.charged_leave, tallied.published⟩
  | die call => exact ⟨tallied.recorded, tallied.charged_leave, tallied.published⟩

theorem of_reached {Allowed : Billing → BillingAction → Prop}
    (reached : billing.Reached Allowed state) : state.Tallied :=
  reached.invariant Tallied (fun _ first => by cases first; exact .initial)
    fun _ action tallied _ enabled => tallied.step action enabled

end Billing.Tallied

/-! ## The chain of causes -/

def Application.Insures (state : Application) (policy : PolicyRow) : Prop :=
  policy ∈ state.policies ∧
    ∃ row ∈ state.applications, row.id = policy.applicationId ∧
      row.applicant = policy.applicant ∧ row.product = policy.product ∧
      row.sumAssured ≤ referralThreshold

private theorem Application.Founded.insures {state : Application} {messageId : String}
    {event : PolicyIssued} (founded : state.Founded (.issued messageId event)) :
    ∃ policy, state.Insures policy ∧ policy.id = event.policyId ∧
      policy.premium = event.annualPremium ∧ policy.applicant = event.applicant := by
  rcases founded with ⟨⟨row, known, accepted, outcome, same⟩, announced⟩
  rcases announced messageId event rfl with ⟨policy, held, fields⟩
  rcases row.outcome_accepted outcome with ⟨within, acceptance⟩
  have written : policy = policyRow row.acceptance event.policyId := by
    rw [fields, ← acceptance, same]
    rfl
  exact ⟨policy,
    ⟨held, row, known, (congrArg PolicyRow.applicationId written).symm,
      (congrArg PolicyRow.applicant written).symm, (congrArg PolicyRow.product written).symm,
      within⟩,
    congrArg PolicyRow.id fields, congrArg PolicyRow.premium fields,
    congrArg PolicyRow.applicant fields⟩

/-- In every run, whatever fails, is repeated or comes out of order: a charge,
and a premium that is announced as charged, is for a policy on record at its
premium, and this for an application on record within the limit. -/
theorem every_charge_justified {state : Application}
    (reached : application.Reached TransitionSystem.anyStep state) :
    (∀ policyId ∈ state.billing.charges, ∃ policy, state.Insures policy ∧
      policy.id = policyId) ∧
    (∀ taken ∈ state.billing.history.taken, ∃ policy, state.Insures policy ∧
      policy.id = taken.2.policyId ∧ policy.premium = taken.2.annualPremium) ∧
    (∀ charge ∈ state.billing.published, ∃ policy, state.Insures policy ∧
      policy.id = charge.event.policyId ∧ policy.premium = charge.event.amount ∧
      policy.applicant = charge.event.applicant) := by
  have own : billing.Reached TransitionSystem.anyStep state.billing :=
    billing_reached (fun _ _ _ => trivial) (fun _ _ _ => trivial) reached
  have tallied : state.billing.Tallied := .of_reached own
  have carries := Application.carries_founded reached
  have insured : ∀ taken ∈ state.billing.history.taken, ∃ policy, state.Insures policy ∧
      policy.id = taken.2.policyId ∧ policy.premium = taken.2.annualPremium ∧
      policy.applicant = taken.2.applicant :=
    fun taken member => (carries.billed.2 taken member).insures
  refine ⟨?_, ?_, ?_⟩
  · intro policyId charged
    rw [tallied.recorded] at charged
    rcases List.mem_map.mp charged with ⟨taken, member, same⟩
    rcases insured taken member with ⟨policy, insures, its, -⟩
    exact ⟨policy, insures, its.trans same⟩
  · intro taken member
    rcases insured taken member with ⟨policy, insures, its, premium, -⟩
    exact ⟨policy, insures, its, premium⟩
  · intro charge announced
    rcases tallied.published charge announced with ⟨taken, member, same⟩
    rw [same]
    exact insured taken member

/-- A charge whose announcement fails, taken again when the message comes back,
and a second policy for an acceptance handed out twice. -/
theorem retried_charge_justified : ∃ state : Application,
    state.billing.charges = ["POL-1", "POL-1", "POL-2"] ∧
      ∀ policyId ∈ state.billing.charges, ∃ policy, state.Insures policy ∧
        policy.id = policyId := by
  have reached : application.Reached TransitionSystem.anyStep _ :=
    .of_run ([.submit applicant, .submit applicant, .rollback (.submit applicant),
        .commit (.submit applicant), .relay (.submitted submission)] ++
      underwriting ++ issuing "POL-1" "message-1" ++
      [.deliver (.issued "message-1" (policyIssued acceptance "POL-1")) "" "",
        .bill (.claim ⟨"message-1", policyIssued acceptance "POL-1", .claim⟩),
        .bill (.raise ⟨"message-1", policyIssued acceptance "POL-1", .publish false⟩),
        .bill (.release ⟨"message-1", policyIssued acceptance "POL-1", .release⟩),
        .duplicate (.issued "message-1" (policyIssued acceptance "POL-1"))] ++
      premium "POL-1" "message-1" ++ [.duplicate (.accepted acceptance)] ++
      issuing "POL-2" "message-2" ++ premium "POL-2" "message-2") (.start rfl) rfl
  exact ⟨_, by decide, (every_charge_justified reached).1⟩

end AmqpApps.PolicyAdministration
