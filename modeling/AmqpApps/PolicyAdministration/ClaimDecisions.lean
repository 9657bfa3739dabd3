import AmqpApps.PolicyAdministration.Claims

/-! # A claim is decided by an answer

What a call publishes rests on the one answer to its own ask: the policy was in the
table then, and still is, or it was not. A call without an answer publishes nothing.
-/

namespace AmqpApps.PolicyAdministration

/-! ## Tallies of calls -/

def ClaimCall.isOut (call : ClaimCall) : Bool := call.event.isSome

def ClaimCall.outAs (settled : Bool) (call : ClaimCall) : Bool :=
  call.event.any fun event => event.isSettled == settled

private theorem ClaimCall.event_of_out {call : ClaimCall} (silent : call.await.out ≠ some true) :
    call.event = none := by
  rcases call with ⟨claim, await⟩
  cases await with
  | answer => rfl
  | publish status held out =>
      cases out with
      | false => rfl
      | true => exact absurd rfl silent

def EndedClaim.isOut (ended : EndedClaim) : Bool := ended.event.isSome

def EndedClaim.raised (ended : EndedClaim) : Bool :=
  match ended.result with
  | .ok _ => false
  | .error _ => true

/-- The publish raised that told of a decision of the given kind, which the broker has taken. -/
def EndedClaim.unsentAs (settled : Bool) (ended : EndedClaim) : Bool :=
  ended.raised && ended.event.any fun event => event.isSettled == settled

def EndedClaim.isAnswered (ended : EndedClaim) : Bool :=
  match ended.lookup with
  | .answered => true
  | _ => false

def ClaimsModule.count (claims : ClaimsModule) : Bool → Nat
  | true => claims.settled
  | false => claims.rejected

def asksOf (kind : ClaimCall → Bool) (calls : Multiset ClaimCall) : Multiset Nat :=
  (calls.filter fun call => kind call = true).map fun call => call.claim.ask

private theorem asksOf_cons (kind : ClaimCall → Bool) (call : ClaimCall)
    (calls : Multiset ClaimCall) :
    asksOf kind (call ::ₘ calls) =
      (if kind call then {call.claim.ask} else 0) + asksOf kind calls := by
  by_cases chosen : kind call = true
  · simp [asksOf, chosen]
  · simp [asksOf, chosen]

private theorem asksOf_erase (kind : ClaimCall → Bool) {call : ClaimCall}
    {calls : Multiset ClaimCall}
    (present : call ∈ calls) :
    asksOf kind calls =
      (if kind call then {call.claim.ask} else 0) + asksOf kind (calls.erase call) := by
  rw [← asksOf_cons, Multiset.cons_erase present]

namespace Claims

def decided (state : Claims) : Multiset Nat :=
  asksOf ClaimCall.isOut state.calls +
    (state.ended.filter fun ended => ended.isOut = true).map fun ended => ended.claim.ask

def asked (state : Claims) : Multiset Nat :=
  (state.calls.map fun call => call.claim.ask) + state.ended.map fun ended => ended.claim.ask

def undecided (state : Claims) : Multiset Nat :=
  asksOf (fun call => !call.isOut) state.calls +
    (state.ended.filter fun ended => ¬ended.isOut = true).map fun ended => ended.claim.ask

private theorem asked_eq (state : Claims) : state.asked = state.decided + state.undecided := by
  have calls := congrArg (Multiset.map fun call => call.claim.ask)
    (Multiset.filter_add_not (fun call => ClaimCall.isOut call = true) state.calls)
  have ended := congrArg (Multiset.map fun ended => ended.claim.ask)
    (Multiset.filter_add_not (fun ended => EndedClaim.isOut ended = true) state.ended)
  rw [asked, ← calls, ← ended]
  simp only [decided, undecided, asksOf, Multiset.map_add, Bool.not_eq_true', Bool.not_eq_true]
  abel

/-- A status of the table as the onlooker has noted it. -/
def Vouches (state : Claims) (policyId : String) (status : PolicyStatus) (held : Bool) : Prop :=
  status.inForce = held ∧ (held = true → state.application.holds policyId = true)

variable {state : Claims} {call : ClaimCall}

private theorem asked_goOn (present : call ∈ state.calls) (await : ClaimAwait) :
    (state.goOn call await).asked = state.asked := by
  rw [asked, asked, ← Multiset.cons_erase present]
  simp [goOn]

private theorem asked_finish (present : call ∈ state.calls) (lookup : Lookup)
    (result : Except ClaimError String) :
    (state.finish call lookup result).asked = state.asked := by
  rw [asked, asked, ← Multiset.cons_erase present]
  simp [finish]

private theorem decided_goOn (present : call ∈ state.calls) (silent : call.isOut = false)
    (await : ClaimAwait) :
    (state.goOn call await).decided =
      (if ClaimCall.isOut { call with await } then {call.claim.ask} else 0) + state.decided := by
  have split := asksOf_erase ClaimCall.isOut present
  simp only [silent, Bool.false_eq_true, if_false, zero_add] at split
  simp [decided, goOn, split, asksOf_cons, add_assoc]

private theorem decided_finish (present : call ∈ state.calls) (lookup : Lookup)
    (result : Except ClaimError String) :
    (state.finish call lookup result).decided = state.decided := by
  have split := asksOf_erase ClaimCall.isOut present
  rw [decided, decided, split]
  cases out : call.isOut with
  | true =>
      have taken : EndedClaim.isOut ⟨call.claim, lookup, call.event, result⟩ = true := out
      simp [finish, Multiset.filter_cons_of_pos, taken]
  | false =>
      have silent : EndedClaim.isOut ⟨call.claim, lookup, call.event, result⟩ = false := out
      simp [finish, Multiset.filter_cons_of_neg, silent]

end Claims

/-! ## The invariant -/

/-- What is published for a claim: settled for the amount asked for, while the table
holds the policy; or rejected, when it did not hold it at the lookup. -/
def PublishedClaim.Decides (event : PublishedClaim) (claim : Claim) : Prop :=
  event.ask = claim.ask ∧ event.correlation = claim.policyId ∧
    ((event.event = .settled ⟨claim.claimId, claim.policyId, claim.amount⟩ ∧
        event.heldNow = true) ∨
      (event.event = .rejected ⟨claim.claimId, claim.policyId, "no policy in force"⟩ ∧
        event.heldThen = false))

/-- How a call ends: with its claim's id once its publish has returned, and otherwise with an
error. -/
def EndedClaim.Told (ended : EndedClaim) : Prop :=
  match ended.lookup with
  | .answered =>
      ended.result = .ok ended.claim.claimId ∧ ended.isOut = true ∨ ended.result = .error .other
  | .timedOut => ended.result = .error ended.claim.undecided ∧ ended.isOut = false
  | .failed => ended.result = .error .other ∧ ended.isOut = false

structure Answered (state : Claims) : Prop where
  numbered : ∀ claim ∈ state.submitted, claim.ask < state.asks
  distinct : (state.submitted.map Claim.ask).Nodup
  everyone : state.asked = Multiset.ofList (state.submitted.map Claim.ask)
  queries : ∀ query ∈ state.queries, ∃ claim ∈ state.submitted, query = claim.query
  replies : ∀ reply ∈ state.replies, ∃ claim ∈ state.submitted, reply.ask = claim.ask ∧
    ∀ status ∈ reply.answer, state.Vouches claim.policyId status reply.held
  calls : ∀ call ∈ state.calls, call.claim ∈ state.submitted ∧
    ∀ status held out, call.await = .publish status held out →
      state.Vouches call.claim.policyId status held
  decided : Multiset.ofList (state.published.map PublishedClaim.ask) = state.decided
  published : ∀ event ∈ state.published, ∃ claim ∈ state.submitted, event.Decides claim
  ended : ∀ ended ∈ state.ended, ended.Told
  counted : ∀ settled, (state.published.countP fun event => event.event.isSettled == settled) =
    state.service.count settled + howMany (ClaimCall.outAs settled) state.calls +
      howMany (EndedClaim.unsentAs settled) state.ended

namespace Answered

variable {state : Claims} {call : ClaimCall}

private theorem initial : Answered .initial where
  numbered := by simp [Claims.initial]
  distinct := by simp [Claims.initial]
  everyone := rfl
  queries := by simp [Claims.initial]
  replies := by simp [Claims.initial]
  calls := by simp [Claims.initial]
  decided := rfl
  published := by simp [Claims.initial]
  ended := by simp [Claims.initial]
  counted settled := by cases settled <;> rfl

private theorem of_calls (answered : Answered state) {next : Claims}
    (holds : ∀ policyId, state.application.holds policyId = true →
      next.application.holds policyId = true)
    (asks : next.asks = state.asks) (calls : next.calls = state.calls)
    (published : next.published = state.published) (ended : next.ended = state.ended)
    (submitted : next.submitted = state.submitted) (service : next.service = state.service)
    (queries : ∀ query ∈ next.queries, ∃ claim ∈ state.submitted, query = claim.query)
    (replies : ∀ reply ∈ next.replies, ∃ claim ∈ state.submitted, reply.ask = claim.ask ∧
      ∀ status ∈ reply.answer, state.Vouches claim.policyId status reply.held) :
    Answered next := by
  have vouches : ∀ {policyId status held}, state.Vouches policyId status held →
      next.Vouches policyId status held :=
    fun vouched => ⟨vouched.1, fun held => holds _ (vouched.2 held)⟩
  constructor
  · rw [submitted, asks]
    exact answered.numbered
  · rw [submitted]
    exact answered.distinct
  · rw [submitted, Claims.asked, calls, ended]
    exact answered.everyone
  · rw [submitted]
    exact queries
  · intro reply member
    rcases replies reply member with ⟨claim, present, mine, honest⟩
    rw [submitted]
    exact ⟨claim, present, mine, fun status said => vouches (honest status said)⟩
  · intro call member
    rw [calls] at member
    rw [submitted]
    have before := answered.calls call member
    exact ⟨before.1, fun status held out awaits => vouches (before.2 status held out awaits)⟩
  · rw [published, Claims.decided, calls, ended]
    exact answered.decided
  · rw [published, submitted]
    exact answered.published
  · rw [ended]
    exact answered.ended
  · intro settled
    rw [published, service, calls, ended]
    exact answered.counted settled

private theorem submit (answered : Answered state) (claimId policyId : String) (amount : Int) :
    Answered (state.perform (.submit claimId policyId amount)) := by
  let claim : Claim := ⟨state.asks, claimId, policyId, amount⟩
  have more : ∀ {other : Claim}, other ∈ state.submitted → other ∈ state.submitted ++ [claim] :=
    fun member => List.mem_append_left _ member
  have mine : claim ∈ state.submitted ++ [claim] :=
    List.mem_append_right _ (List.mem_singleton_self _)
  constructor
  · intro other member
    rcases List.mem_append.mp member with before | now
    · exact Nat.lt_succ_of_lt (answered.numbered other before)
    · rw [List.mem_singleton.mp now]
      exact Nat.lt_succ_self _
  · simp only [Claims.perform, List.map_append]
    apply List.nodup_append.mpr
    refine ⟨answered.distinct, List.nodup_singleton _, ?_⟩
    intro ask before other now
    rcases List.mem_map.mp before with ⟨earlier, member, same⟩
    have fresh : other = state.asks := List.mem_singleton.mp now
    have older := answered.numbered earlier member
    omega
  · have grown : (state.perform (.submit claimId policyId amount)).asked =
        state.asks ::ₘ state.asked := by
      simp [Claims.asked, Claims.perform]
    rw [grown, answered.everyone, Multiset.cons_coe]
    simp only [Claims.perform, List.map_append, List.map_cons, List.map_nil]
    exact Multiset.coe_eq_coe.mpr (List.perm_append_singleton _ _).symm
  · intro query member
    rcases Multiset.mem_cons.mp member with now | before
    · exact ⟨claim, mine, now⟩
    · rcases answered.queries query before with ⟨other, present, same⟩
      exact ⟨other, more present, same⟩
  · intro reply member
    rcases answered.replies reply member with ⟨other, present, honest⟩
    exact ⟨other, more present, honest⟩
  · intro call member
    rcases Multiset.mem_cons.mp member with now | before
    · rw [now]
      exact ⟨mine, fun _ _ _ awaits => by cases awaits⟩
    · have old := answered.calls call before
      exact ⟨more old.1, old.2⟩
  · have decided := answered.decided
    simp only [Claims.decided] at decided
    simp [Claims.perform, Claims.decided, asksOf_cons, ClaimCall.isOut, ClaimCall.event, decided]
  · intro event member
    rcases answered.published event member with ⟨other, present, decides⟩
    exact ⟨other, more present, decides⟩
  · exact answered.ended
  · intro settled
    simp only [Claims.perform, howMany_cons, ClaimCall.outAs, ClaimCall.event, Option.any_none,
      Bool.toNat_false, Nat.add_zero]
    exact answered.counted settled

theorem claim_eq (answered : Answered state) {claim other : Claim}
    (member : claim ∈ state.submitted) (memberToo : other ∈ state.submitted)
    (same : claim.ask = other.ask) : claim = other :=
  List.inj_on_of_nodup_map answered.distinct member memberToo same

private theorem finish (answered : Answered state) (present : call ∈ state.calls) {lookup : Lookup}
    {error : ClaimError}
    (told : EndedClaim.Told ⟨call.claim, lookup, call.event, .error error⟩) :
    Answered (state.finish call lookup (.error error)) := by
  constructor
  · exact answered.numbered
  · exact answered.distinct
  · rw [Claims.asked_finish present]
    exact answered.everyone
  · exact answered.queries
  · exact answered.replies
  · exact fun other member => answered.calls other (Multiset.mem_of_mem_erase member)
  · rw [Claims.decided_finish present]
    exact answered.decided
  · exact answered.published
  · exact Multiset.forall_mem_cons.mpr ⟨told, answered.ended⟩
  · intro settled
    have split := howMany_erase (ClaimCall.outAs settled) present
    have counted := answered.counted settled
    have same : EndedClaim.unsentAs settled ⟨call.claim, lookup, call.event, .error error⟩ =
        call.outAs settled := rfl
    simp only [Claims.finish, howMany_cons, same]
    omega

private theorem finish_waiting (answered : Answered state) (present : call ∈ state.calls)
    (waiting : call.await.out = none) {lookup : Lookup} {error : ClaimError}
    (told : EndedClaim.Told ⟨call.claim, lookup, none, .error error⟩) :
    Answered (state.finish call lookup (.error error)) := by
  apply answered.finish present
  rw [ClaimCall.event_of_out (by rw [waiting]; nofun)]
  exact told

private theorem answer (answered : Answered state) {query : Query} (present : query ∈ state.queries)
    (answer : Option PolicyStatus) (held : Bool)
    (honest : ∀ status ∈ answer, state.Vouches query.policyId status held) :
    Answered
      { state with
        queries := state.queries.erase query
        replies := ⟨query.ask, answer, held⟩ ::ₘ state.replies } := by
  refine answered.of_calls (fun _ holds => holds) rfl rfl rfl rfl rfl rfl
    (fun other member => answered.queries other (Multiset.mem_of_mem_erase member)) ?_
  intro reply member
  rcases Multiset.mem_cons.mp member with now | before
  · rcases answered.queries query present with ⟨claim, submitted, same⟩
    subst same
    rw [now]
    exact ⟨claim, submitted, rfl, honest⟩
  · exact answered.replies reply before

private theorem calls_goOn (answered : Answered state) (present : call ∈ state.calls)
    {status : PolicyStatus} {held : Bool}
    (vouched : state.Vouches call.claim.policyId status held) (out : Bool) :
    ∀ other ∈ { call with await := .publish status held out } ::ₘ state.calls.erase call,
      other.claim ∈ state.submitted ∧
        ∀ status held out, other.await = .publish status held out →
          state.Vouches other.claim.policyId status held := by
  refine forall_cons_erase ⟨(answered.calls call present).1, ?_⟩ answered.calls
  intro _ _ _ awaits
  cases awaits
  exact vouched

private theorem decide (answered : Answered state) (present : call ∈ state.calls)
    (waiting : call.await.out = none) {status : PolicyStatus} {held : Bool}
    (vouched : state.Vouches call.claim.policyId status held) :
    Answered (state.goOn call (.publish status held false)) := by
  have nothing : call.event = none := ClaimCall.event_of_out (by rw [waiting]; nofun)
  have silent : call.isOut = false := by simp [ClaimCall.isOut, nothing]
  constructor
  · exact answered.numbered
  · exact answered.distinct
  · rw [Claims.asked_goOn present]
    exact answered.everyone
  · exact answered.queries
  · exact answered.replies
  · exact answered.calls_goOn present vouched false
  · rw [Claims.decided_goOn present silent]
    exact answered.decided.trans (by simp [ClaimCall.isOut, ClaimCall.event])
  · exact answered.published
  · exact answered.ended
  · intro settled
    have split := howMany_erase (ClaimCall.outAs settled) present
    have counted := answered.counted settled
    rw [ClaimCall.outAs, nothing] at split
    simp only [Claims.goOn, howMany_cons, ClaimCall.outAs, ClaimCall.event] at counted ⊢
    simpa [split] using counted

private theorem receive (answered : Answered state) (present : call ∈ state.calls)
    (waiting : call.await.out = none) {reply : Reply} (arrived : reply ∈ state.replies)
    (own : reply.ask = call.claim.ask) :
    Answered (state.perform (.receive call reply)) := by
  have fewer : Answered { state with replies := state.replies.erase reply } :=
    answered.of_calls (fun _ holds => holds) rfl rfl rfl rfl rfl rfl answered.queries
      fun other member => answered.replies other (Multiset.mem_of_mem_erase member)
  simp only [Claims.perform]
  split
  · rename_i status said
    rcases answered.replies reply arrived with ⟨claim, submitted, theirs, honest⟩
    have mine := (answered.calls call present).1
    have same := answered.claim_eq submitted mine (theirs.symm.trans own)
    subst same
    exact fewer.decide present waiting (honest status said)
  · exact fewer.finish_waiting present waiting ⟨rfl, rfl⟩

/-- The broker takes an event: the policy was in the table at the lookup, and so is now,
or it was not. -/
theorem publish (answered : Answered state) (present : call ∈ state.calls)
    (publishing : call.await.out = some false) :
    Answered (state.perform (.publish call)) := by
  rcases call with ⟨claim, await⟩
  cases await with
  | answer => cases publishing
  | publish status held out =>
      cases publishing
      have mine := answered.calls _ present
      have vouched := mine.2 status held false rfl
      have silent : ClaimCall.isOut ⟨claim, .publish status held false⟩ = false := rfl
      let event : PublishedClaim := ⟨claim.ask, claim.decide status, claim.policyId, held,
        state.application.holds claim.policyId⟩
      have decides : event.Decides claim := by
        refine ⟨rfl, rfl, ?_⟩
        cases inForce : status.inForce with
        | true => exact .inl ⟨by simp [event, Claim.decide, inForce],
            vouched.2 (vouched.1.symm.trans inForce)⟩
        | false => exact .inr ⟨by simp [event, Claim.decide, inForce],
            vouched.1.symm.trans inForce⟩
      simp only [Claims.perform]
      constructor
      · exact answered.numbered
      · exact answered.distinct
      · have same := Claims.asked_goOn present (.publish status held true)
        exact same.trans answered.everyone
      · exact answered.queries
      · exact answered.replies
      · exact answered.calls_goOn present vouched true
      · have more := Claims.decided_goOn present silent (.publish status held true)
        simp only [List.map_append, List.map_cons, List.map_nil, ← Multiset.coe_add,
          answered.decided]
        refine Eq.trans ?_ more.symm
        simp [ClaimCall.isOut, ClaimCall.event, add_comm]
      · intro other member
        rcases List.mem_append.mp member with before | now
        · exact answered.published other before
        · rw [List.mem_singleton.mp now]
          exact ⟨claim, mine.1, decides⟩
      · exact answered.ended
      · intro settled
        have split := howMany_erase (ClaimCall.outAs settled) present
        have counted := answered.counted settled
        have before : ClaimCall.outAs settled ⟨claim, .publish status held false⟩ = false := rfl
        have after : ClaimCall.outAs settled ⟨claim, .publish status held true⟩ =
            ((claim.decide status).isSettled == settled) := rfl
        rw [before] at split
        simp only [Claims.goOn, howMany_cons, countP_concat, after, Bool.toNat_false] at split ⊢
        omega

private theorem sent (answered : Answered state) (present : call ∈ state.calls)
    (out : call.await.out = some true) : Answered (state.perform (.sent call)) := by
  rcases call with ⟨claim, await⟩
  cases await with
  | answer => cases out
  | publish status held _ =>
      cases out
      simp only [Claims.perform]
      constructor
      · exact answered.numbered
      · exact answered.distinct
      · have same := Claims.asked_finish present .answered (.ok claim.claimId)
        exact same.trans answered.everyone
      · exact answered.queries
      · exact answered.replies
      · exact fun other member => answered.calls other (Multiset.mem_of_mem_erase member)
      · have same := Claims.decided_finish present .answered (.ok claim.claimId)
        exact answered.decided.trans same.symm
      · exact answered.published
      · exact Multiset.forall_mem_cons.mpr ⟨.inl ⟨rfl, rfl⟩, answered.ended⟩
      · intro settled
        have split := howMany_erase (ClaimCall.outAs settled) present
        have counted := answered.counted settled
        have out : ClaimCall.outAs settled ⟨claim, .publish status held true⟩ =
            (status.inForce == settled) := by
          simp [ClaimCall.outAs, ClaimCall.event, Claim.decide_isSettled]
        have returned : EndedClaim.unsentAs settled ⟨claim, .answered,
            ClaimCall.event ⟨claim, .publish status held true⟩, .ok claim.claimId⟩ = false := rfl
        have more : (state.service.sent (claim.decide status)).count settled =
            state.service.count settled + (status.inForce == settled).toNat := by
          cases inForce : status.inForce <;> cases settled <;>
            simp [Claim.decide, inForce, ClaimsModule.sent, ClaimsModule.count]
        rw [out] at split
        simp only [Claims.finish, howMany_cons, returned, more, Bool.toNat_false]
        omega

private theorem kept (answered : Answered state) (step : ClaimsStep)
    (enabled : state.Enabled step) :
    Answered (state.perform step) := by
  cases step with
  | application step =>
      exact answered.of_calls (fun _ => Application.holds_perform _ step) rfl rfl rfl rfl rfl rfl
        answered.queries answered.replies
  | submit claimId policyId amount => exact answered.submit claimId policyId amount
  | answer query =>
      apply answered.answer enabled
      intro status said
      cases said
      have inForce := statusOf_inForce state.application query.policyId
      exact ⟨inForce, id⟩
  | fail query => exact answered.answer enabled none false fun _ said => by cases said
  | redeliver claim =>
      refine answered.of_calls (fun _ holds => holds) rfl rfl rfl rfl rfl rfl ?_ answered.replies
      intro query member
      rcases Multiset.mem_cons.mp member with now | before
      · exact ⟨claim, enabled, now⟩
      · exact answered.queries query before
  | receive call reply => exact answered.receive enabled.1 enabled.2.1 enabled.2.2.1 enabled.2.2.2
  | timeout call => exact answered.finish_waiting enabled.1 enabled.2 ⟨rfl, rfl⟩
  | raise call => exact answered.finish_waiting enabled.1 enabled.2 ⟨rfl, rfl⟩
  | publish call => exact answered.publish enabled.1 enabled.2
  | sent call => exact answered.sent enabled.1 enabled.2
  | unsent call => exact answered.finish enabled.1 (.inr rfl)

theorem of_reached {Allowed : Claims → ClaimsStep → Prop} (reached : claims.Reached Allowed state) :
    Answered state := by
  apply reached.invariant Answered
  · intro state first
    cases first
    exact .initial
  · intro state step answered _ enabled
    exact answered.kept step enabled

private theorem asked_nodup (answered : Answered state) :
    (state.decided + state.undecided).Nodup := by
  rw [← state.asked_eq, answered.everyone]
  exact Multiset.coe_nodup.mpr answered.distinct

theorem published_nodup (answered : Answered state) :
    (state.published.map PublishedClaim.ask).Nodup := by
  rw [← Multiset.coe_nodup, answered.decided]
  exact (Multiset.nodup_add.mp answered.asked_nodup).1

theorem unpublished (answered : Answered state) {ask : Nat} (undecided : ask ∈ state.undecided) :
    ask ∉ state.published.map PublishedClaim.ask := by
  have apart := (Multiset.nodup_add.mp answered.asked_nodup).2.2
  rw [← Multiset.mem_coe, answered.decided]
  exact fun decided => Multiset.disjoint_left.mp apart decided undecided

end Answered

/-! ## Decisions -/

def PublishesReturn (_ : Claims) (step : ClaimsStep) : Prop := ∀ call, step ≠ .unsent call

instance (state : Claims) (step : ClaimsStep) : Decidable (PublishesReturn state step) := by
  unfold PublishesReturn
  cases step with
  | unsent call => exact .isFalse fun returns => returns call rfl
  | _ => exact .isTrue nofun

/-- How a call ends then: with its claim's id after an answer, and otherwise with an error. -/
def EndedClaim.Fits (ended : EndedClaim) : Prop :=
  match ended.lookup with
  | .answered => ended.result = .ok ended.claim.claimId
  | .timedOut => ended.result = .error ended.claim.undecided
  | .failed => ended.result = .error .other

namespace EndedClaim

variable {ended : EndedClaim}

theorem Told.silent (told : ended.Told) (unanswered : ended.isAnswered = false) :
    ended.isOut = false := by
  rw [Told] at told
  rw [isAnswered] at unanswered
  cases lookup : ended.lookup <;> simp only [lookup] at told unanswered
  · cases unanswered
  · exact told.2
  · exact told.2

theorem Told.out (told : ended.Told) {claimId : String} (returned : ended.result = .ok claimId) :
    ended.isOut = true := by
  rw [Told] at told
  cases lookup : ended.lookup <;> simp [lookup, returned] at told
  exact told.2

theorem Told.answered (told : ended.Told) (isAnswered : ended.isAnswered = true) :
    ended.lookup = .answered ∧
      (ended.result = .ok ended.claim.claimId ∨ ended.result = .error .other) := by
  rw [Told] at told
  rw [EndedClaim.isAnswered] at isAnswered
  cases lookup : ended.lookup <;> simp only [lookup] at told isAnswered
  · exact ⟨rfl, told.imp And.left id⟩
  · cases isAnswered
  · cases isAnswered

theorem Told.error (told : ended.Told) (silent : ended.isOut = false) :
    ∃ error, ended.result = .error error := by
  cases result : ended.result with
  | ok claimId =>
      rw [told.out result] at silent
      cases silent
  | error error => exact ⟨error, rfl⟩

/-- A call has published or raised; it has done both where its publish raised too late. -/
theorem Told.parts (told : ended.Told) :
    ended.isOut.toNat + ended.raised.toNat =
      1 + (ended.unsentAs true).toNat + (ended.unsentAs false).toNat := by
  cases result : ended.result with
  | ok claimId =>
      rw [told.out result, raised, unsentAs, unsentAs, raised, result]
      rfl
  | error error =>
      rw [isOut, unsentAs, unsentAs, raised, result]
      cases ended.event with
      | none => rfl
      | some event => cases event <;> rfl

private theorem unsentAs_of_fits (ended : EndedClaim) (fits : ended.Fits) (told : ended.Told)
    {settled : Bool} : ended.unsentAs settled = false := by
  cases isAnswered : ended.isAnswered with
  | true =>
      have returned : ended.result = .ok ended.claim.claimId := by
        rw [EndedClaim.isAnswered] at isAnswered
        rw [Fits] at fits
        cases lookup : ended.lookup <;> simp only [lookup] at fits isAnswered
        · exact fits
        · cases isAnswered
        · cases isAnswered
      rw [unsentAs, raised, returned]
      rfl
  | false =>
      have silent := told.silent isAnswered
      rw [isOut, Option.isSome_eq_false_iff, Option.isNone_iff_eq_none] at silent
      rw [unsentAs, silent]
      simp

end EndedClaim

private theorem fits_of_reached {state : Claims} (reached : claims.Reached PublishesReturn state) :
    ∀ ended ∈ state.ended, ended.Fits := by
  apply reached.invariant fun state => ∀ ended ∈ state.ended, ended.Fits
  · intro state first ended member
    cases first
    exact absurd member (Multiset.notMem_zero ended)
  · intro state step others returns _
    cases step with
    | receive call reply =>
        cases answer : reply.answer with
        | none =>
            simp only [claims, Claims.perform, answer]
            exact Multiset.forall_mem_cons.mpr ⟨rfl, others⟩
        | some status =>
            simp only [claims, Claims.perform, answer]
            exact others
    | timeout call => exact Multiset.forall_mem_cons.mpr ⟨rfl, others⟩
    | raise call => exact Multiset.forall_mem_cons.mpr ⟨rfl, others⟩
    | publish call =>
        rcases call with ⟨claim, await⟩
        cases await <;> exact others
    | sent call =>
        rcases call with ⟨claim, await⟩
        cases await with
        | answer => exact others
        | publish status held out => exact Multiset.forall_mem_cons.mpr ⟨rfl, others⟩
    | unsent call => exact absurd rfl (returns call)
    | _ => exact others

/-- Each `submit` publishes at most one event: the claim settled for its amount, while
the table holds the policy, or rejected, when it did not at the lookup. A call that got
no answer has published nothing, and raises. The counters say how many events are out,
but for the calls whose send has yet to return. -/
theorem decided_by_answer {state : Claims}
    (reached : claims.Reached PublishesReturn state) :
    (state.published.map PublishedClaim.ask).Nodup ∧
    (state.submitted.map Claim.ask).Nodup ∧
    (∀ event ∈ state.published, ∃ claim ∈ state.submitted, event.Decides claim) ∧
    (∀ call ∈ state.calls, call.isOut = false →
      call.claim.ask ∉ state.published.map PublishedClaim.ask) ∧
    (∀ ended ∈ state.ended, ended.Fits ∧ (ended.isAnswered = false →
      ended.claim.ask ∉ state.published.map PublishedClaim.ask)) ∧
    state.service.settled + howMany (ClaimCall.outAs true) state.calls =
      (state.published.countP fun event => event.event.isSettled == true) ∧
    state.service.rejected + howMany (ClaimCall.outAs false) state.calls =
      state.published.countP fun event => event.event.isSettled == false := by
  have answered := Answered.of_reached reached
  have fits := fits_of_reached reached
  have nothingUnsent : ∀ settled, howMany (EndedClaim.unsentAs settled) state.ended = 0 := by
    intro settled
    apply Multiset.countP_eq_zero.mpr
    intro ended member
    rw [ended.unsentAs_of_fits (fits ended member) (answered.ended ended member)]
    exact Bool.false_ne_true
  have settled := answered.counted true
  have rejected := answered.counted false
  rw [nothingUnsent, Nat.add_zero] at settled rejected
  refine ⟨answered.published_nodup, answered.distinct, answered.published, ?_, ?_,
    settled.symm, rejected.symm⟩
  · intro call present silent
    apply answered.unpublished
    apply Multiset.mem_add.mpr
    left
    exact Multiset.mem_map.mpr ⟨call, Multiset.mem_filter.mpr ⟨present, by simp [silent]⟩, rfl⟩
  · intro ended member
    refine ⟨fits ended member, ?_⟩
    intro unanswered
    apply answered.unpublished
    apply Multiset.mem_add.mpr
    right
    have silent := (answered.ended ended member).silent unanswered
    exact Multiset.mem_map.mpr ⟨ended, Multiset.mem_filter.mpr ⟨member, by simp [silent]⟩, rfl⟩

def stages (message : Message) : List Step :=
  [.deliver message "" "", .publish ⟨message, false⟩, .return_ ⟨message, true⟩]

def insuring (row : ApplicationRow) (policyId messageId : String) : List Step :=
  let checked := checkRegister row.submitted
  let acceptance : ApplicationAccepted :=
    ⟨row.id, row.applicant, row.product, row.sumAssured, (price checked).annualPremium⟩
  [.submit row, .commit (.submit row), .relay (.submitted row.submitted)] ++
    stages (.submitted row.submitted) ++ stages (.register row.submitted) ++
    stages (.price checked) ++ stages (.decide (price checked)) ++
    [.deliver (.accepted acceptance) policyId messageId,
      .commit (.issue acceptance policyId messageId)]

def freeOfCharge : ApplicationRow := ⟨"APP-3", "A. Applicant", "TERM-LIFE", 500, 30⟩

def knownClaim : Claim := ⟨0, "CLM-1", "POL-3", 1000⟩

def slowClaim : Claim := ⟨1, "CLM-2", "POL-3", 2000⟩

/-- A claim on a policy that costs nothing is settled; another's answer comes too late. -/
theorem free_policy_settled : ∃ state : Claims,
    state.published.map PublishedClaim.event = [.settled ⟨"CLM-1", "POL-3", 1000⟩] ∧
      state.service.settled = 1 ∧ state.ended.card = 2 ∧
      ∀ event ∈ state.published, ∃ claim ∈ state.submitted, event.Decides claim := by
  have reached := TransitionSystem.Reached.of_isSome_run claims PublishesReturn
    (.start rfl)
    (.submit "CLM-1" "POL-3" 1000 :: .submit "CLM-2" "POL-3" 2000 ::
      (insuring freeOfCharge "POL-3" "message-3").map .application ++
      [.answer knownClaim.query,
        .receive ⟨knownClaim, .answer⟩ ⟨0, some ⟨"POL-3", true, 0⟩, true⟩,
        .timeout ⟨slowClaim, .answer⟩, .answer slowClaim.query,
        .publish ⟨knownClaim, .publish ⟨"POL-3", true, 0⟩ true false⟩,
        .sent ⟨knownClaim, .publish ⟨"POL-3", true, 0⟩ true true⟩])
    (by decide +kernel)
  exact ⟨_, by decide +kernel, by decide +kernel, by decide +kernel,
    (decided_by_answer reached).2.2.1⟩

/-- The broker has the event before the send returns and the call is counted. -/
theorem count_lags_publish : ¬ ∀ state : Claims,
    claims.Reached PublishesReturn state →
      state.service.settled =
          (state.published.countP fun event => event.event.isSettled == true) ∧
        state.service.rejected =
          state.published.countP fun event => event.event.isSettled == false := by
  intro counted
  have reached : claims.Reached PublishesReturn _ :=
    .of_run [.submit "CLM-1" "POL-3" 1000, .answer knownClaim.query,
      .receive ⟨knownClaim, .answer⟩ ⟨0, some ⟨"POL-3", false, 0⟩, false⟩,
      .publish ⟨knownClaim, .publish ⟨"POL-3", false, 0⟩ false false⟩] (.start rfl) rfl
  have one := (counted _ reached).2
  revert one
  decide

end AmqpApps.PolicyAdministration
