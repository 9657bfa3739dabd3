import AmqpApps.Foundation.Runs
import AmqpApps.PolicyAdministration.ClaimDecisions

/-! # A policy in force

Policies are never struck off. So a customer whose policy is in force when they claim is not
turned away for want of one, however long the answer takes.
-/

namespace AmqpApps.PolicyAdministration

/-- Since the first state: whoever has claimed on a policy that was in force then is told so. -/
structure Covered (first state : Claims) : Prop where
  holds : ∀ policyId, first.application.holds policyId = true →
    state.application.holds policyId = true
  asks : first.asks ≤ state.asks
  replies : ∀ reply ∈ state.replies, ∀ claim ∈ state.submitted, claim.ask = reply.ask →
    first.asks ≤ claim.ask → first.application.holds claim.policyId = true →
      ∀ status ∈ reply.answer, status.inForce = true
  calls : ∀ call ∈ state.calls, first.asks ≤ call.claim.ask →
    first.application.holds call.claim.policyId = true →
      ∀ status held out, call.await = .publish status held out → status.inForce = true
  published : ∀ event ∈ state.published, first.asks ≤ event.ask →
    first.application.holds event.correlation = true → event.event.isSettled = true

namespace Covered

variable {first state : Claims}

private theorem start (answered : Answered first) : Covered first first where
  holds _ held := held
  asks := le_rfl
  replies _ _ claim submitted _ later := absurd (answered.numbered claim submitted) (by omega)
  calls call member later :=
    absurd (answered.numbered call.claim (answered.calls call member).1) (by omega)
  published event member later := by
    rcases answered.published event member with ⟨claim, submitted, same, -⟩
    have numbered := answered.numbered claim submitted
    omega

private theorem calls_goOn (covered : Covered first state) {call : ClaimCall} {await : ClaimAwait}
    (mine : first.asks ≤ call.claim.ask → first.application.holds call.claim.policyId = true →
      ∀ status held out, await = .publish status held out → status.inForce = true) :
    ∀ other ∈ { call with await } ::ₘ state.calls.erase call, first.asks ≤ other.claim.ask →
      first.application.holds other.claim.policyId = true →
        ∀ status held out, other.await = .publish status held out → status.inForce = true :=
  forall_cons_erase mine covered.calls

private theorem finish (covered : Covered first state) (call : ClaimCall) (lookup : Lookup)
    (result : Except ClaimError String) : Covered first (state.finish call lookup result) where
  holds := covered.holds
  asks := covered.asks
  replies := covered.replies
  calls other member := covered.calls other (Multiset.mem_of_mem_erase member)
  published := covered.published

private theorem step (covered : Covered first state) (answered : Answered state) (step : ClaimsStep)
    (enabled : state.Enabled step) : Covered first (state.perform step) := by
  have fewer : ∀ reply, ∀ other ∈ state.replies.erase reply, other ∈ state.replies :=
    fun _ _ member => Multiset.mem_of_mem_erase member
  cases step with
  | application step =>
      refine ⟨?_, covered.asks, covered.replies, covered.calls, covered.published⟩
      intro policyId held
      exact state.application.holds_perform step (covered.holds policyId held)
  | submit claimId policyId amount =>
      refine ⟨covered.holds, covered.asks.trans (Nat.le_succ _), ?_, ?_, covered.published⟩
      · intro reply member claim submitted same
        rcases List.mem_append.mp submitted with before | now
        · exact covered.replies reply member claim before same
        · rcases answered.replies reply member with ⟨other, earlier, asked, -⟩
          have numbered := answered.numbered other earlier
          rw [List.mem_singleton.mp now] at same
          simp only at same
          omega
      · intro call member later held status heldThen out awaits
        rcases Multiset.mem_cons.mp member with now | before
        · rw [now] at awaits
          cases awaits
        · exact covered.calls call before later held status heldThen out awaits
  | answer query =>
      refine ⟨covered.holds, covered.asks, ?_, covered.calls, covered.published⟩
      intro reply member claim submitted same later held status said
      rcases Multiset.mem_cons.mp member with now | before
      · rcases answered.queries query enabled with ⟨other, submittedToo, asked⟩
        rw [now] at same said
        have numbered : claim.ask = other.ask := by rw [same, asked, Claim.query]
        have mine : claim = other := answered.claim_eq submitted submittedToo numbered
        rw [← Option.some.inj said, asked, Claim.query, statusOf_inForce, ← mine]
        exact covered.holds claim.policyId held
      · exact covered.replies reply before claim submitted same later held status said
  | fail query =>
      refine ⟨covered.holds, covered.asks, ?_, covered.calls, covered.published⟩
      intro reply member claim submitted same later held status said
      rcases Multiset.mem_cons.mp member with now | before
      · rw [now] at said
        cases said
      · exact covered.replies reply before claim submitted same later held status said
  | redeliver claim =>
      exact ⟨covered.holds, covered.asks, covered.replies, covered.calls, covered.published⟩
  | receive call reply =>
      rcases enabled with ⟨present, waiting, replied, own⟩
      have received : Covered first { state with replies := state.replies.erase reply } :=
        ⟨covered.holds, covered.asks, fun other member => covered.replies other (fewer _ _ member),
          covered.calls, covered.published⟩
      cases answer : reply.answer with
      | none =>
          simp only [Claims.perform, answer]
          exact received.finish call _ _
      | some status =>
          simp only [Claims.perform, answer]
          refine ⟨covered.holds, covered.asks, received.replies, ?_, covered.published⟩
          apply received.calls_goOn
          intro later held told heldThen out awaits
          cases awaits
          exact covered.replies reply replied call.claim (answered.calls call present).1 own.symm
            later held status answer
  | timeout call => exact covered.finish call _ _
  | raise call => exact covered.finish call _ _
  | publish call =>
      rcases call with ⟨claim, await⟩
      cases await with
      | answer => exact covered
      | publish status heldThen out =>
          have mine := covered.calls ⟨claim, .publish status heldThen out⟩ enabled.1
          refine ⟨covered.holds, covered.asks, covered.replies, ?_, ?_⟩
          · apply covered.calls_goOn
            intro later held told heldToo outToo awaits
            cases awaits
            exact mine later held status heldThen out rfl
          · intro event member later held
            rcases List.mem_append.mp member with before | now
            · exact covered.published event before later held
            · rw [List.mem_singleton.mp now] at later held ⊢
              rw [Claim.decide_isSettled]
              exact mine later held status heldThen out rfl
  | sent call =>
      rcases call with ⟨claim, await⟩
      cases await with
      | answer => exact covered
      | publish status heldThen out =>
          exact ⟨covered.holds, covered.asks, covered.replies,
            fun other member => covered.calls other (Multiset.mem_of_mem_erase member),
            covered.published⟩
  | unsent call => exact covered.finish call _ _

end Covered

/-- A claim on a policy that was in force before the claim was made is never rejected: whatever
happens in between, and whenever the answer is given, what is published for it, if anything,
is that it is settled for the amount asked for; and its call returns only when that is out. -/
theorem insured_never_rejected {state last : Claims} {more : List ClaimsStep}
    (reached : claims.Reached TransitionSystem.anyStep state)
    (path : claims.Leads TransitionSystem.anyStep state more last) :
    ∀ claim ∈ last.submitted, state.asks ≤ claim.ask →
      state.application.holds claim.policyId = true →
      (∀ event ∈ last.published, event.ask = claim.ask →
        event.event = .settled ⟨claim.claimId, claim.policyId, claim.amount⟩) ∧
      ∀ ended ∈ last.ended, ended.claim = claim → ended.result = .ok claim.claimId →
        ∃ event ∈ last.published, event.ask = claim.ask := by
  have covered : claims.Reached TransitionSystem.anyStep last ∧ Covered state last := by
    apply path.keeps fun last =>
      claims.Reached TransitionSystem.anyStep last ∧ Covered state last
    · intro last step before _ enabled
      exact ⟨.next step before.1 trivial enabled,
        before.2.step (Answered.of_reached before.1) step enabled⟩
    · exact ⟨reached, .start (Answered.of_reached reached)⟩
  have answered := Answered.of_reached covered.1
  intro claim submitted later held
  constructor
  · intro event published same
    rcases answered.published event published with ⟨other, submittedToo, decides⟩
    have mine : other = claim :=
      answered.claim_eq submittedToo submitted (decides.1.symm.trans same)
    subst mine
    have settled := covered.2.published event published (by rw [same]; exact later)
      (by rw [decides.2.1]; exact held)
    rcases decides.2.2 with ⟨isSettled, -⟩ | ⟨rejected, -⟩
    · exact isSettled
    · rw [rejected] at settled
      cases settled
  · intro ended member mine returned
    have out := (answered.ended ended member).out returned
    have decided : claim.ask ∈ last.published.map PublishedClaim.ask := by
      rw [← Multiset.mem_coe, answered.decided]
      apply Multiset.mem_add.mpr
      exact .inr (Multiset.mem_map.mpr
        ⟨ended, Multiset.mem_filter.mpr ⟨member, out⟩, by rw [mine]⟩)
    rcases List.mem_map.mp decided with ⟨event, published, asked⟩
    exact ⟨event, published, asked⟩

/-- A policy is issued, and then somebody claims on it. -/
theorem later_claim_settled : ∃ last : Claims, last.published.length = 1 ∧
    ∀ event ∈ last.published, event.ask = 0 →
      event.event = .settled ⟨"CLM-1", "POL-3", 1000⟩ := by
  have reached := TransitionSystem.Reached.of_isSome_run claims TransitionSystem.anyStep
    (.start rfl) ((insuring freeOfCharge "POL-3" "message-3").map .application)
    (by decide +kernel)
  have settled := insured_never_rejected reached
    (.of_isSome_run claims TransitionSystem.anyStep
      [.submit "CLM-1" "POL-3" 1000, .answer knownClaim.query,
        .receive ⟨knownClaim, .answer⟩ ⟨0, some ⟨"POL-3", true, 0⟩, true⟩,
        .publish ⟨knownClaim, .publish ⟨"POL-3", true, 0⟩ true false⟩]
      (by decide +kernel))
  rcases settled knownClaim (by decide +kernel) (by decide +kernel) (by decide +kernel) with
    ⟨mine, -⟩
  exact ⟨_, by decide +kernel, mine⟩

end AmqpApps.PolicyAdministration
