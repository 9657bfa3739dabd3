import AmqpApps.StandingLoad.Load
import Mathlib.Algebra.BigOperators.Group.List.Basic
import Mathlib.Tactic.FieldSimp
import Mathlib.Tactic.Ring

/-! # The load accounts for every attempt

A send that has begun is in flight or in one of three counters. A rate is what a counter
has grown by since the last reading, so that the rates of a run add up to the counter.
-/

namespace AmqpApps.StandingLoad

/-! ## What the readings say -/

structure Counters.Grows (earlier later : Counters) : Prop where
  published : earlier.published ≤ later.published
  confirmed : earlier.confirmed ≤ later.confirmed
  consumed : earlier.consumed ≤ later.consumed
  refused : earlier.refused ≤ later.refused
  failed : earlier.failed ≤ later.failed

def Counters.ended (counters : Counters) : Nat :=
  counters.confirmed + counters.refused + counters.failed

/-- The sends that have ended and the one in flight are those published, and the rates are
there if the clock has gone forward. -/
structure Observation.Sound (observation : Observation) : Prop where
  attempts : observation.reading.counters.published =
    observation.reading.counters.ended + observation.inFlight.toNat
  rated : 0 < observation.interval →
    observation.reading.publishRate.isSome ∧ observation.reading.consumeRate.isSome

/-- What a reading reports of its interval by a rate. -/
def Observation.reported (rate : Reading → Option ℚ) (observation : Observation) : ℚ :=
  (rate observation.reading).getD 0 * observation.interval

def lastRead (observations : List Observation) : Counters :=
  (observations.getLast?.map fun observation => observation.reading.counters).getD .new

/-- At each reading, the increases reported so far make up the counter, as long as the
clock has gone forward. -/
def AddUp (rate : Reading → Option ℚ) (count : Counters → Nat)
    (observations : List Observation) : Prop :=
  ∀ soFar later, observations = soFar ++ later →
    (∀ observation ∈ soFar, 0 < observation.interval) →
    (soFar.map (Observation.reported rate)).sum = count (lastRead soFar)

private theorem Counters.Grows.refl (counters : Counters) : counters.Grows counters :=
  ⟨le_rfl, le_rfl, le_rfl, le_rfl, le_rfl⟩

private theorem Counters.Grows.trans {first second third : Counters} (early : first.Grows second)
    (late : second.Grows third) : first.Grows third where
  published := early.published.trans late.published
  confirmed := early.confirmed.trans late.confirmed
  consumed := early.consumed.trans late.consumed
  refused := early.refused.trans late.refused
  failed := early.failed.trans late.failed

@[simp] theorem lastRead_concat (observations : List Observation) (last : Observation) :
    lastRead (observations ++ [last]) = last.reading.counters := by
  simp [lastRead]

private theorem ratePer_isSome {elapsed : ℚ} (forward : 0 < elapsed) {count last : Nat} :
    (ratePer elapsed count last).isSome := by
  rw [ratePer, if_pos forward]
  rfl

private theorem ratePer_mul {elapsed : ℚ} (forward : 0 < elapsed) (count last : Nat) :
    (ratePer elapsed count last).getD 0 * elapsed = count - last := by
  rw [ratePer, if_pos forward, Option.getD_some]
  exact div_mul_cancel₀ _ forward.ne'

private theorem AddUp.nil {rate : Reading → Option ℚ} {count : Counters → Nat}
    (zero : count .new = 0) :
    AddUp rate count [] := by
  intro soFar later parts forward
  rcases List.append_eq_nil_iff.mp parts.symm with ⟨rfl, rfl⟩
  simp [lastRead, zero]

private theorem AddUp.concat {rate : Reading → Option ℚ} {count : Counters → Nat}
    {observations : List Observation} (addUp : AddUp rate count observations)
    {last : Observation}
    (taken : rate last.reading = ratePer last.interval (count last.reading.counters)
      (count (lastRead observations))) :
    AddUp rate count (observations ++ [last]) := by
  intro soFar later parts forward
  rcases List.eq_nil_or_concat later with rfl | ⟨between, final, rfl⟩
  · rw [List.append_nil] at parts
    subst parts
    have before := addUp observations [] (List.append_nil _).symm
      fun observation member => forward observation (List.mem_append_left _ member)
    have positive := forward last (List.mem_append_right _ (List.mem_singleton.mpr rfl))
    rw [List.map_append, List.sum_append, before, List.map_singleton, List.sum_singleton,
      Observation.reported, taken, ratePer_mul positive, lastRead_concat]
    ring
  · rw [List.concat_eq_append, ← List.append_assoc] at parts
    exact addUp soFar between (List.append_inj_left' parts rfl) forward

/-! ## The invariant -/

namespace Load

/-- Each send begun has come to an end or is in flight, until `main` cancels what is, which
it does after the last reading. -/
def Balanced (state : Load) : Prop :=
  state.counters.published = state.counters.ended + state.inFlight.toNat ∨
    state.sampling = .returned

def Baseline (state : Load) : Prop :=
  ∀ sampler, state.sampling = .waiting sampler →
    sampler.lastConfirmed = (lastRead state.observations).confirmed ∧
      sampler.lastConsumed = (lastRead state.observations).consumed

structure Accounted (state : Load) : Prop where
  unstarted : state.sampling = .before → state.publishing = none ∧ state.observations = []
  balanced : state.Balanced
  baseline : state.Baseline
  sound : ∀ observation ∈ state.observations, observation.Sound
  past : ∀ observation ∈ state.observations, observation.reading.counters.Grows state.counters
  ordered : state.observations.Pairwise fun earlier later =>
    earlier.reading.counters.Grows later.reading.counters
  confirms : AddUp Reading.publishRate Counters.confirmed state.observations
  deliveries : AddUp Reading.consumeRate Counters.consumed state.observations

private theorem accounted_initial : Accounted .initial where
  unstarted _ := ⟨rfl, rfl⟩
  balanced := .inl rfl
  baseline sampler waiting := by cases waiting
  sound observation member := by cases member
  past observation member := by cases member
  ordered := .nil
  confirms := .nil rfl
  deliveries := .nil rfl

theorem inFlight_of_idle {state : Load} (idle : state.idle = true) : state.inFlight = false := by
  rw [Load.idle] at idle
  rw [inFlight]
  cases task : state.publishing with
  | none => rfl
  | some publishing =>
      rw [task] at idle
      cases publishing with
      | sending order => cases idle
      | _ => rfl

private theorem grows_answered (counters : Counters) (outcome : SendOutcome) :
    counters.Grows (counters.answered outcome) := by
  cases outcome <;> constructor <;> simp [Counters.answered]

/-- Each outcome is counted once, and by one counter. -/
theorem ended_answered (counters : Counters) (outcome : SendOutcome) :
    (counters.answered outcome).published = counters.published ∧
      (counters.answered outcome).ended = counters.ended + 1 := by
  cases outcome <;> simp only [Counters.answered, Counters.ended, true_and] <;> omega

private theorem grows_perform (state : Load) (action : LoadAction) :
    state.counters.Grows (state.perform action).counters := by
  cases action with
  | deliver => exact { Counters.Grows.refl state.counters with consumed := Nat.le_succ _ }
  | offer => exact { Counters.Grows.refl state.counters with published := Nat.le_succ _ }
  | answer outcome => exact grows_answered state.counters outcome
  | emit now writtenAt blocked reason =>
      simp only [perform]
      split <;> exact .refl _
  | _ => exact .refl _

private theorem Accounted.balanced_perform {state : Load} {action : LoadAction}
    (accounted : state.Accounted) (enabled : state.Enabled action) :
    (state.perform action).Balanced := by
  cases action with
  | deliver => exact accounted.balanced
  | stop => exact accounted.balanced
  | start now =>
      rcases accounted.balanced with balanced | returned
      · left
        rw [inFlight, (accounted.unstarted enabled).1] at balanced
        exact balanced
      · rw [enabled] at returned
        cases returned
  | offer =>
      rcases accounted.balanced with balanced | returned
      · left
        rw [inFlight_of_idle enabled.1] at balanced
        simp only [perform, balanced, inFlight, Option.any_some, Publishing.isSending]
        rfl
      · exact .inr returned
  | answer outcome =>
      rcases accounted.balanced with balanced | returned
      · left
        have counted := ended_answered state.counters outcome
        rw [show state.inFlight = true from enabled] at balanced
        simp only [perform]
        rw [counted.1, counted.2, balanced]
        rfl
      · exact .inr returned
  | finish =>
      rcases accounted.balanced with balanced | returned
      · left
        rw [inFlight_of_idle enabled.1] at balanced
        exact balanced
      · exact .inr returned
  | emit now writtenAt blocked reason =>
      cases sampling : state.sampling with
      | waiting sampler =>
          rcases accounted.balanced with balanced | returned
          · left
            simp only [perform, sampling]
            exact balanced
          · rw [sampling] at returned
            cases returned
      | _ => simp [Enabled, sampling, Sampling.isWaiting] at enabled
  | cancel => exact .inr enabled.1

private theorem Accounted.of_same {state : Load} (accounted : state.Accounted) {action : LoadAction}
    (enabled : state.Enabled action)
    (same : (state.perform action).observations = state.observations)
    (started : (state.perform action).sampling = .before →
      (state.perform action).publishing = none ∧ state.observations = [])
    (baseline : (state.perform action).Baseline) : (state.perform action).Accounted where
  unstarted := by
    rw [same]
    exact started
  balanced := accounted.balanced_perform enabled
  baseline := baseline
  sound := by
    rw [same]
    exact accounted.sound
  past := by
    rw [same]
    intro observation member
    exact (accounted.past observation member).trans (grows_perform state action)
  ordered := by
    rw [same]
    exact accounted.ordered
  confirms := by
    rw [same]
    exact accounted.confirms
  deliveries := by
    rw [same]
    exact accounted.deliveries

/-- `emit`: what is read goes on from the last reading. -/
theorem Accounted.emit {state : Load} (accounted : state.Accounted) (now : ℚ)
    (writtenAt : String) (blocked : Option Bool) (reason : Option String)
    (enabled : state.Enabled (.emit now writtenAt blocked reason)) :
    (state.perform (.emit now writtenAt blocked reason)).Accounted := by
  have balanced := accounted.balanced_perform enabled
  cases sampling : state.sampling with
  | waiting sampler =>
      have baseline := accounted.baseline sampler sampling
      have attempted : state.counters.published =
          state.counters.ended + state.inFlight.toNat := by
        rcases accounted.balanced with attempted | returned
        · exact attempted
        · rw [sampling] at returned
          cases returned
      simp only [perform, sampling] at balanced ⊢
      constructor
      · intro before
        simp only at before
        split at before <;> cases before
      · exact balanced
      · intro next waiting
        simp only at waiting ⊢
        rw [lastRead_concat]
        split at waiting <;> cases waiting
        exact ⟨rfl, rfl⟩
      · intro observation member
        rcases List.mem_append.mp member with before | now
        · exact accounted.sound observation before
        · rw [List.mem_singleton.mp now]
          exact ⟨attempted, fun forward => ⟨ratePer_isSome forward, ratePer_isSome forward⟩⟩
      · intro observation member
        rcases List.mem_append.mp member with before | now
        · exact accounted.past observation before
        · rw [List.mem_singleton.mp now]
          exact .refl _
      · apply List.pairwise_append.mpr
        refine ⟨accounted.ordered, List.pairwise_singleton _ _, ?_⟩
        intro earlier member later now
        rw [List.mem_singleton.mp now]
        exact accounted.past earlier member
      · apply accounted.confirms.concat
        rw [← baseline.1]
        rfl
      · apply accounted.deliveries.concat
        rw [← baseline.2]
        rfl
  | _ => simp [Enabled, sampling, Sampling.isWaiting] at enabled

private theorem Accounted.kept {state : Load} {action : LoadAction} (accounted : state.Accounted)
    (enabled : state.Enabled action) : (state.perform action).Accounted := by
  cases action with
  | deliver => exact accounted.of_same enabled rfl accounted.unstarted accounted.baseline
  | stop => exact accounted.of_same enabled rfl accounted.unstarted accounted.baseline
  | start now =>
      have nothing := (accounted.unstarted enabled).2
      apply accounted.of_same enabled rfl
      · intro before
        simp only [perform] at before
        split at before <;> cases before
      · intro sampler waiting
        simp only [perform] at waiting ⊢
        rw [nothing]
        split at waiting <;> cases waiting
        exact ⟨rfl, rfl⟩
  | offer =>
      apply accounted.of_same enabled rfl _ accounted.baseline
      intro before
      have idle := enabled.1
      rw [Load.idle, (accounted.unstarted before).1] at idle
      cases idle
  | answer outcome =>
      apply accounted.of_same enabled rfl _ accounted.baseline
      intro before
      have sending : state.inFlight = true := enabled
      rw [inFlight, (accounted.unstarted before).1] at sending
      cases sending
  | finish =>
      apply accounted.of_same enabled rfl _ accounted.baseline
      intro before
      have idle := enabled.1
      rw [Load.idle, (accounted.unstarted before).1] at idle
      cases idle
  | emit now writtenAt blocked reason =>
      exact accounted.emit now writtenAt blocked reason enabled
  | cancel =>
      apply accounted.of_same enabled rfl _ accounted.baseline
      intro before
      have returned := enabled.1
      rw [show state.sampling = .before from before] at returned
      cases returned

end Load

/-- Every send is accounted for at every reading, and every confirm and delivery is in the
rates of one interval. -/
theorem accounts_for_every_attempt {state : Load}
    (reached : load.Reached TransitionSystem.anyStep state) :
    (∀ observation ∈ state.observations,
      (observation.reading.counters.published : ℤ) -
          (observation.reading.counters.confirmed + observation.reading.counters.refused +
            observation.reading.counters.failed) =
        if observation.inFlight then 1 else 0) ∧
    (state.observations.Pairwise fun earlier later =>
      earlier.reading.counters.Grows later.reading.counters) ∧
    ∀ soFar last later, state.observations = soFar ++ last :: later →
      (∀ observation ∈ soFar ++ [last], 0 < observation.interval) →
        (∀ observation ∈ soFar ++ [last],
          observation.reading.publishRate.isSome ∧ observation.reading.consumeRate.isSome) ∧
        ((soFar ++ [last]).map (Observation.reported Reading.publishRate)).sum =
          last.reading.counters.confirmed ∧
        ((soFar ++ [last]).map (Observation.reported Reading.consumeRate)).sum =
          last.reading.counters.consumed := by
  have accounted : state.Accounted :=
    reached.invariant Load.Accounted (fun _ first => by cases first; exact Load.accounted_initial)
      fun _ _ accounted _ enabled => accounted.kept enabled
  refine ⟨?_, accounted.ordered, ?_⟩
  · intro observation member
    have attempts := (accounted.sound observation member).attempts
    rw [Counters.ended] at attempts
    rw [attempts]
    cases observation.inFlight with
    | true =>
        simp only [Bool.toNat_true, if_true]
        omega
    | false =>
        simp only [Bool.toNat_false, Bool.false_eq_true, if_false]
        omega
  · intro soFar last later parts forward
    have split : state.observations = (soFar ++ [last]) ++ later := by
      rw [parts, List.append_assoc]
      rfl
    refine ⟨?_, ?_, ?_⟩
    · intro observation member
      have read : observation ∈ state.observations := by
        rw [split]
        exact List.mem_append_left _ member
      exact (accounted.sound observation read).rated (forward observation member)
    · rw [accounted.confirms _ later split forward, lastRead_concat]
    · rw [accounted.deliveries _ later split forward, lastRead_concat]

/-- Two readings with a send in flight at the first, which the broker has blocked, and a
delivery before either. Of the sends one is refused and two fail. -/
theorem blocked_send_accounted : ∃ state : Load,
    load.Reached TransitionSystem.anyStep state ∧
      (state.observations.map fun observation =>
        (observation.reading.counters, observation.inFlight)) =
          [(⟨2, 1, 1, 0, 0⟩, true), (⟨4, 1, 2, 1, 2⟩, false)] ∧
      ((state.observations.map (Observation.reported Reading.publishRate)).sum = 1 ∧
        (state.observations.map (Observation.reported Reading.consumeRate)).sum = 2) := by
  have reached : load.Reached TransitionSystem.anyStep _ :=
    .of_isSome_run load TransitionSystem.anyStep (.start rfl)
      [.deliver, .start 10, .offer, .answer .confirmed, .offer,
        .emit 11 "2025-11-02T10:00:01Z" (some true) (some "low on memory"), .answer .timeout,
        .offer, .answer .paused, .offer, .answer .timeout, .deliver, .stop, .finish,
        .emit (25 / 2) "2025-11-02T10:00:02Z" (some false) none]
      (by decide +kernel)
  have accounts := (accounts_for_every_attempt reached).2.2
  refine ⟨_, reached, by decide +kernel, ?_⟩
  exact (accounts [_] _ [] rfl (by decide +kernel)).2

end AmqpApps.StandingLoad
