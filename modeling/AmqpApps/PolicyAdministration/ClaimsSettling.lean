import AmqpApps.PolicyAdministration.PoliciesInForce
import AmqpApps.PolicyAdministration.Settling

/-! # Every claim comes to an end

A claim that has been submitted is settled or rejected, or its call raises.
-/

namespace AmqpApps.PolicyAdministration

def ClaimsStep.own : ClaimsStep → Bool
  | application step => step.own
  | submit .. | redeliver _ => false
  | answer _ | fail _ | receive .. | timeout _ | raise _ | publish _ | sent _ | unsent _ => true

def ClaimCall.work (call : ClaimCall) : Nat :=
  match call.await.out with
  | none => 3
  | some false => 2
  | some true => 1

namespace Claims

variable {state : Claims} {call : ClaimCall}

def work (state : Claims) : Nat :=
  state.application.work + state.queries.card + (state.calls.map fun call => call.work).sum

private theorem work_goOn {await : ClaimAwait} (present : call ∈ state.calls)
    (less : ClaimCall.work { call with await } < call.work) :
    (state.goOn call await).work < state.work := by
  have parts := sum_erase (fun call : ClaimCall => call.work) present
  simp only [work, goOn, Multiset.map_cons, Multiset.sum_cons]
  omega

private theorem work_finish (present : call ∈ state.calls) (lookup : Lookup)
    (result : Except ClaimError String) : (state.finish call lookup result).work < state.work := by
  have parts := sum_erase (fun call : ClaimCall => call.work) present
  have positive : 0 < call.work := by
    unfold ClaimCall.work
    split <;> decide
  simp only [work, finish]
  omega

private theorem work_step {step : ClaimsStep} (own : step.own = true)
    (enabled : state.Enabled step) :
    (state.perform step).work < state.work := by
  cases step with
  | application step =>
      have less := Application.work_step own enabled
      simp only [perform, work]
      omega
  | submit claimId policyId amount => cases own
  | redeliver claim => cases own
  | answer query =>
      have taken := Multiset.card_erase_add_one enabled
      simp only [perform, work]
      omega
  | fail query =>
      have taken := Multiset.card_erase_add_one enabled
      simp only [perform, work]
      omega
  | receive call reply =>
      rcases enabled with ⟨present, waiting, -, -⟩
      have ahead : call.work = 3 := by simp [ClaimCall.work, waiting]
      cases answer : reply.answer with
      | none =>
          simp only [perform, answer]
          exact @work_finish { state with replies := state.replies.erase reply } call present _ _
      | some status =>
          simp only [perform, answer]
          apply @work_goOn { state with replies := state.replies.erase reply } call _ present
          rw [ahead]
          exact Nat.lt_succ_self 2
  | timeout call => exact work_finish enabled.1 _ _
  | raise call => exact work_finish enabled.1 _ _
  | publish call =>
      rcases call with ⟨claim, await⟩
      rcases enabled with ⟨present, waiting⟩
      cases await with
      | answer => cases waiting
      | publish status held out =>
          cases waiting
          exact work_goOn present (Nat.lt_succ_self 1)
  | sent call =>
      rcases call with ⟨claim, await⟩
      rcases enabled with ⟨present, waiting⟩
      cases await with
      | answer => cases waiting
      | publish status held out => exact work_finish present .answered (.ok claim.claimId)
  | unsent call => exact work_finish enabled.1 _ _

private theorem work_given {step : ClaimsStep} (given : step.own = false) :
    (state.perform step).work ≤ state.work + 22 := by
  cases step with
  | application step =>
      have bound : (state.application.perform step).work ≤ state.application.work + 22 :=
        Application.work_given given
      simp only [perform, work]
      omega
  | submit claimId policyId amount =>
      have asking : ClaimCall.work ⟨⟨state.asks, claimId, policyId, amount⟩, .answer⟩ = 3 := rfl
      simp only [perform, work, Multiset.card_cons, Multiset.map_cons, Multiset.sum_cons, asking]
      omega
  | redeliver claim =>
      simp only [perform, work, Multiset.card_cons]
      omega
  | _ => cases given

private theorem runsDown : claims.RunsDown (TransitionSystem.byItself (·.own = true))
    (claims.Reached TransitionSystem.anyStep) work where
  kept _ step reached _ enabled := .next step reached trivial enabled
  lighter _ _ _ own enabled := work_step own enabled

structure AtRest (state : Claims) : Prop where
  application : state.application.AtRest
  queries : state.queries = 0
  calls : state.calls = 0

private theorem atRest_of_still
    (still : claims.Still (TransitionSystem.byItself (·.own = true)) state) : state.AtRest := by
  have cannot : ∀ step : ClaimsStep, step.own = true → ¬state.Enabled step := still
  constructor
  · apply state.application.attends_byItself.atRest
    intro step own enabled
    exact cannot (.application step) own enabled
  · apply Multiset.eq_zero_of_forall_notMem
    intro query member
    exact cannot (.answer query) rfl member
  · apply Multiset.eq_zero_of_forall_notMem
    rintro ⟨claim, await⟩ member
    cases await with
    | answer => exact cannot (.timeout _) rfl ⟨member, rfl⟩
    | publish status held out =>
        cases out with
        | false => exact cannot (.publish _) rfl ⟨member, rfl⟩
        | true => exact cannot (.sent _) rfl ⟨member, rfl⟩

end Claims

private theorem claims_work_le {Allowed : Claims → ClaimsStep → Prop} {actions : List ClaimsStep}
    {state : Claims} (ran : claims.Ran Allowed actions state) :
    actions.countP ClaimsStep.own + state.work ≤ 22 * actions.countP (fun step => !step.own) := by
  have bound := ran.taken_le ClaimsStep.own (fun step => !step.own) Claims.work 0 22
    (by
      rintro _ rfl
      simp [Claims.initial, Claims.work, Application.initial, Application.work, Billing.initial,
        Billing.work])
    (fun state step _ own enabled => Claims.work_step own enabled)
    (fun state step given _ => by
      rw [given]
      exact Claims.work_given given)
  omega

/-! ## What comes of a claim -/

private theorem ended_submitted {Allowed : Claims → ClaimsStep → Prop} {state : Claims}
    (reached : claims.Reached Allowed state) :
    ∀ ended ∈ state.ended, ended.claim ∈ state.submitted := by
  have finished : ∀ {state : Claims} {call : ClaimCall} {lookup : Lookup}
      {result : Except ClaimError String}, call.claim ∈ state.submitted →
      (∀ ended ∈ state.ended, ended.claim ∈ state.submitted) →
      ∀ ended ∈ (state.finish call lookup result).ended, ended.claim ∈ state.submitted :=
    fun mine others => Multiset.forall_mem_cons.mpr ⟨mine, others⟩
  apply reached.invariant_using Answered
    (fun state => ∀ ended ∈ state.ended, ended.claim ∈ state.submitted)
    (fun _ => Answered.of_reached)
  · intro state first ended member
    cases first
    exact absurd member (Multiset.notMem_zero ended)
  · intro state step answered others _ enabled
    cases step with
    | submit claimId policyId amount =>
        exact fun ended member => List.mem_append_left _ (others ended member)
    | receive call reply =>
        cases answer : reply.answer with
        | none =>
            simp only [claims, Claims.perform, answer]
            exact finished (answered.calls call enabled.1).1 others
        | some status =>
            simp only [claims, Claims.perform, answer]
            exact others
    | timeout call => exact finished (answered.calls call enabled.1).1 others
    | raise call => exact finished (answered.calls call enabled.1).1 others
    | publish call =>
        rcases call with ⟨claim, await⟩
        cases await <;> exact others
    | sent call =>
        rcases call with ⟨claim, await⟩
        cases await with
        | answer => exact others
        | publish status held out => exact finished (answered.calls _ enabled.1).1 others
    | unsent call => exact finished (answered.calls call enabled.1).1 others
    | _ => exact others

def Claims.Publishes (state : Claims) (claim : Claim) : Prop :=
  ∃ event, state.published.filter (fun event => event.ask = claim.ask) = [event] ∧
    event.Decides claim

/-- What comes of a claim once its call has ended: it is settled or rejected, and that is
published once; or the call has raised, and that is not published, unless its lookup was
answered. -/
def Claims.Ends (state : Claims) (claim : Claim) : Prop :=
  ∃ ended, state.ended.filter (fun ended => ended.claim = claim) = {ended} ∧
    ((ended.result = .ok claim.claimId ∧ state.Publishes claim) ∨
      ((∃ error, ended.result = .error error) ∧
        (state.published.filter (fun event => event.ask = claim.ask) = [] ∨
          ended.lookup = .answered ∧ state.Publishes claim)))

private theorem filter_key {Member : Type u} {key : Member → Nat} {members : List Member}
    {member : Member} (distinct : (members.map key).Nodup) (present : member ∈ members) :
    members.filter (fun other => key other = key member) = [member] := by
  induction members with
  | nil => cases present
  | cons other members induction =>
      rw [List.map_cons, List.nodup_cons] at distinct
      rcases List.mem_cons.mp present with same | later
      · subst same
        have none : members.filter (fun other => key other = key member) = [] := by
          rw [List.filter_eq_nil_iff]
          intro another held equal
          exact distinct.1 (List.mem_map.mpr ⟨another, held, of_decide_eq_true equal⟩)
        rw [List.filter_cons_of_pos (by simp), none]
      · have different : key other ≠ key member :=
          fun equal => distinct.1 (List.mem_map.mpr ⟨member, later, equal.symm⟩)
        rw [List.filter_cons_of_neg (by simpa using different), induction distinct.2 later]

namespace Claims

variable {state : Claims}

private theorem AtRest.asks (rest : state.AtRest) (answered : Answered state) :
    (state.ended.map fun ended => ended.claim.ask) =
      Multiset.ofList (state.submitted.map Claim.ask) := by
  rw [← answered.everyone, asked, rest.calls, Multiset.map_zero, zero_add]

private theorem publishes_of_ended (answered : Answered state) {ended : EndedClaim}
    (member : ended ∈ state.ended) (out : ended.isOut = true) {claim : Claim}
    (submitted : claim ∈ state.submitted) (same : ended.claim = claim) :
    state.Publishes claim := by
  have decided : claim.ask ∈ state.published.map PublishedClaim.ask := by
    rw [← Multiset.mem_coe, answered.decided]
    apply Multiset.mem_add.mpr
    exact .inr (Multiset.mem_map.mpr
      ⟨ended, Multiset.mem_filter.mpr ⟨member, out⟩, by rw [same]⟩)
  rcases List.mem_map.mp decided with ⟨event, published, asked⟩
  rcases answered.published event published with ⟨other, held, decides⟩
  have mine : other = claim :=
    answered.claim_eq held submitted (decides.1.symm.trans asked)
  rw [Publishes, ← asked]
  exact ⟨event, filter_key answered.published_nodup published, mine ▸ decides⟩

/-- The calls that have ended have returned, or raised with the event out, or raised without. -/
theorem ended_parts (ended : Multiset EndedClaim) (told : ∀ call ∈ ended, call.Told) :
    howMany EndedClaim.isOut ended + howMany EndedClaim.raised ended =
      ended.card + howMany (EndedClaim.unsentAs true) ended +
        howMany (EndedClaim.unsentAs false) ended := by
  induction ended using Multiset.induction with
  | empty => rfl
  | cons call others induction =>
      have later := induction fun other member => told other (Multiset.mem_cons_of_mem member)
      have parts := (told call (Multiset.mem_cons_self ..)).parts
      simp only [howMany_cons, Multiset.card_cons]
      omega

private theorem AtRest.ends (rest : state.AtRest) (answered : Answered state)
    (known : ∀ ended ∈ state.ended, ended.claim ∈ state.submitted) :
    ∀ claim ∈ state.submitted, state.Ends claim := by
  intro claim submitted
  have asks := rest.asks answered
  have distinct : (state.ended.map fun ended => ended.claim.ask).Nodup := by
    rw [asks]
    exact answered.distinct
  have mine : claim.ask ∈ state.ended.map fun ended => ended.claim.ask := by
    rw [asks]
    exact List.mem_map_of_mem submitted
  rcases Multiset.mem_map.mp mine with ⟨ended, member, numbered⟩
  have same : ended.claim = claim := answered.claim_eq (known ended member) submitted numbered
  rcases Multiset.exists_cons_of_mem member with ⟨others, split⟩
  have alone : state.ended.filter (fun ended => ended.claim = claim) = {ended} := by
    rw [split, Multiset.map_cons, Multiset.nodup_cons] at distinct
    have none : others.filter (fun ended => ended.claim = claim) = 0 := by
      rw [Multiset.filter_eq_nil]
      intro other held equal
      refine distinct.1 (Multiset.mem_map.mpr ⟨other, held, ?_⟩)
      rw [equal, same]
    have mineFirst := Multiset.filter_cons_of_pos (p := fun ended : EndedClaim =>
      ended.claim = claim) others same
    rw [split, mineFirst, none]
    rfl
  have told := answered.ended ended member
  refine ⟨ended, alone, ?_⟩
  cases out : ended.isOut with
  | true =>
      have isAnswered : ended.isAnswered = true := by
        by_contra unanswered
        rw [told.silent (by simpa using unanswered)] at out
        cases out
      have publishes := publishes_of_ended answered member out submitted same
      rcases told.answered isAnswered with ⟨lookup, returned | raised⟩
      · left
        exact ⟨by rw [returned, same], publishes⟩
      · right
        exact ⟨⟨_, raised⟩, .inr ⟨lookup, publishes⟩⟩
  | false =>
      have undecided : claim.ask ∈ state.undecided := by
        apply Multiset.mem_add.mpr
        exact .inr (Multiset.mem_map.mpr
          ⟨ended, Multiset.mem_filter.mpr ⟨member, by simp [out]⟩, numbered⟩)
      have silent := answered.unpublished undecided
      right
      refine ⟨told.error out, .inl ?_⟩
      rw [List.filter_eq_nil_iff]
      intro event published equal
      exact silent (List.mem_map.mpr ⟨event, published, of_decide_eq_true equal⟩)

/-- Every claim is counted as settled or as rejected, or its call has raised. -/
theorem AtRest.counted (rest : state.AtRest) (answered : Answered state) :
    state.service.settled + state.service.rejected +
      howMany EndedClaim.raised state.ended = state.submitted.length := by
  have settled := answered.counted true
  have rejected := answered.counted false
  have published := congrArg Multiset.card answered.decided
  have asks := congrArg Multiset.card (rest.asks answered)
  have outcomes : (state.published.countP fun event => event.event.isSettled == true) +
      (state.published.countP fun event => event.event.isSettled == false) =
        state.published.length := by
    rw [List.length_eq_countP_add_countP fun event : PublishedClaim =>
      event.event.isSettled == true]
    congr 2
    funext event
    cases event.event.isSettled <;> rfl
  have ends := ended_parts state.ended answered.ended
  rw [howMany] at ends
  simp only [rest.calls, howMany_zero, ClaimsModule.count, add_zero] at settled rejected
  simp only [Claims.decided, rest.calls, asksOf, Multiset.filter_zero, Multiset.map_zero,
    zero_add, Multiset.coe_card, List.length_map, Multiset.card_map,
    ← Multiset.countP_eq_card_filter] at published asks
  omega

end Claims

private theorem Claims.submitted_of_own {state : Claims} {step : ClaimsStep}
    (own : step.own = true) :
    (state.perform step).submitted = state.submitted := by
  cases step with
  | submit claimId policyId amount => cases own
  | receive call reply => cases answer : reply.answer <;> simp [perform, answer, goOn, finish]
  | publish call =>
      rcases call with ⟨claim, await⟩
      cases await <;> rfl
  | sent call =>
      rcases call with ⟨claim, await⟩
      cases await <;> rfl
  | _ => rfl

/-- Left to themselves the modules decide every claim that can be decided, whichever of them
goes first and whatever fails: over a whole run they take at most twenty-two steps for each
that came from outside, and when they can take no more the call of every claim has ended, once,
with its event published once, or with an error and no event, or with the error of the publish
of its one event; and the counters and the errors add up to the claims. -/
theorem claims_come_to_an_end {Allowed : Claims → ClaimsStep → Prop} {actions : List ClaimsStep}
    {state : Claims} (ran : claims.Ran Allowed actions state) :
    (∀ more last, claims.Leads (TransitionSystem.byItself (·.own = true)) state more last →
      actions.countP ClaimsStep.own + more.length ≤
        22 * actions.countP (fun step => !step.own) ∧
      last.submitted = state.submitted ∧
      (claims.Still (TransitionSystem.byItself (·.own = true)) last →
        (∀ claim ∈ last.submitted, last.Ends claim) ∧
        last.service.settled + last.service.rejected +
          howMany EndedClaim.raised last.ended = last.submitted.length)) ∧
    ∃ more last, claims.Leads (TransitionSystem.byItself (·.own = true)) state more last ∧
      claims.Still (TransitionSystem.byItself (·.own = true)) last := by
  have reached : claims.Reached TransitionSystem.anyStep state :=
    ran.reached.mono fun _ _ _ => trivial
  constructor
  · intro more last path
    have bound := claims_work_le ran
    have taken := Claims.runsDown.length_le path reached
    refine ⟨by omega, ?_, ?_⟩
    · apply path.keeps fun last => last.submitted = state.submitted
      · intro last step same own _
        exact (Claims.submitted_of_own own).trans same
      · rfl
    · intro still
      have later := Claims.runsDown.known path reached
      have rest := Claims.atRest_of_still still
      have answered := Answered.of_reached later
      exact ⟨rest.ends answered (ended_submitted later), rest.counted answered⟩
  · rcases Claims.runsDown.settles reached with ⟨more, last, path, -, still⟩
    exact ⟨more, last, path, still⟩

/-- Two claims on a policy there is none of are submitted, and left to the modules. -/
theorem unknown_policy_ends : ∃ state : Claims, state.submitted.length = 2 ∧
    ∀ claim ∈ state.submitted, state.Ends claim := by
  have ran := TransitionSystem.Ran.of_isSome_run claims TransitionSystem.anyStep rfl
    [.submit "CLM-1" "POL-3" 1000, .submit "CLM-2" "POL-3" 2000]
    (by decide +kernel)
  rcases claims_come_to_an_end ran with ⟨outcome, more, last, path, still⟩
  rcases outcome more last path with ⟨-, same, ended⟩
  refine ⟨last, ?_, (ended still).1⟩
  rw [same]
  decide +kernel

end AmqpApps.PolicyAdministration
