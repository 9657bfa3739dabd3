import AmqpApps.Foundation.Runs
import AmqpApps.StandingLoad.Accounting

/-! # The load stops

Once the stop event is set nothing more is sent, one more reading is written, and `main`
returns; the send that it cancels on the way out, if there is one, is in no counter.
-/

namespace AmqpApps.StandingLoad

/-- A step of the two tasks and of `main`; messages come from the broker, and the stop event
is set by a signal or a timer. -/
def LoadAction.own : LoadAction → Bool
  | deliver | stop => false
  | _ => true

def Publishing.work : Publishing → Nat
  | created | pausing => 1
  | sending _ => 2
  | finished | cancelled => 0

def Sampling.work : Sampling → Nat
  | before => 2
  | waiting _ => 1
  | returned => 0

namespace Load

def work (state : Load) : Nat := state.sampling.work + (state.publishing.map Publishing.work).getD 0

structure Tracked (state : Load) : Prop where
  unstarted : state.sampling = .before ↔ state.publishing = none
  attempts : state.counters.published = state.counters.ended + state.inFlight.toNat ∨
    state.publishing = some .cancelled ∧ state.counters.published = state.counters.ended + 1

variable {state : Load}

private theorem Tracked.started (tracked : state.Tracked) {publishing : Publishing}
    (task : state.publishing = some publishing) : state.sampling ≠ .before := by
  intro before
  rw [tracked.unstarted.mp before] at task
  cases task

private theorem exists_of_idle (idle : state.idle = true) :
    ∃ publishing, state.publishing = some publishing ∧ publishing.isIdle = true := by
  rw [Load.idle, Option.any_eq_true] at idle
  exact idle

private theorem exists_of_inFlight (sending : state.inFlight = true) :
    ∃ order, state.publishing = some (.sending order) := by
  rw [inFlight, Option.any_eq_true] at sending
  rcases sending with ⟨publishing, task, sends⟩
  cases publishing with
  | sending order => exact ⟨order, task⟩
  | _ => cases sends

private theorem Tracked.attempts_of_idle (tracked : state.Tracked) (idle : state.idle = true) :
    state.counters.published = state.counters.ended := by
  rcases tracked.attempts with counted | ⟨cancelled, -⟩
  · rw [inFlight_of_idle idle] at counted
    exact counted
  · simp [Load.idle, cancelled, Publishing.isIdle] at idle

private theorem Tracked.attempts_of_inFlight (tracked : state.Tracked)
    (sending : state.inFlight = true) :
    state.counters.published = state.counters.ended + 1 := by
  rcases tracked.attempts with counted | ⟨-, counted⟩
  · rw [sending] at counted
    exact counted
  · exact counted

private theorem Tracked.go (tracked : state.Tracked) {before after : Publishing} {next : Load}
    (task : state.publishing = some before) (sampling : next.sampling = state.sampling)
    (moved : next.publishing = some after)
    (attempts : next.counters.published = next.counters.ended + after.isSending.toNat ∨
      after = .cancelled ∧ next.counters.published = next.counters.ended + 1) :
    next.Tracked where
  unstarted := by
    rw [sampling, moved]
    exact iff_of_false (tracked.started task) (Option.some_ne_none _)
  attempts := by
    rw [inFlight, moved]
    rcases attempts with counted | ⟨cancelled, counted⟩
    · exact .inl counted
    · exact .inr ⟨by rw [cancelled], counted⟩

private theorem Tracked.kept {action : LoadAction} (tracked : state.Tracked)
    (enabled : state.Enabled action) : (state.perform action).Tracked := by
  cases action with
  | deliver => exact ⟨tracked.unstarted, tracked.attempts⟩
  | stop => exact ⟨tracked.unstarted, tracked.attempts⟩
  | start now =>
      have none := tracked.unstarted.mp enabled
      constructor
      · simp only [perform]
        split <;> exact iff_of_false (fun same => by cases same) (Option.some_ne_none _)
      · rcases tracked.attempts with counted | ⟨cancelled, -⟩
        · left
          rw [inFlight, none] at counted
          exact counted
        · rw [none] at cancelled
          cases cancelled
  | offer =>
      rcases exists_of_idle enabled.1 with ⟨publishing, task, -⟩
      refine tracked.go task rfl rfl (.inl ?_)
      exact congrArg Nat.succ (tracked.attempts_of_idle enabled.1)
  | answer outcome =>
      rcases exists_of_inFlight enabled with ⟨order, task⟩
      have counted := ended_answered state.counters outcome
      refine tracked.go task rfl rfl (.inl ?_)
      simp only [perform]
      rw [counted.1, counted.2, tracked.attempts_of_inFlight enabled]
      rfl
  | finish =>
      rcases exists_of_idle enabled.1 with ⟨publishing, task, -⟩
      exact tracked.go task rfl rfl (.inl (tracked.attempts_of_idle enabled.1))
  | emit now writtenAt blocked reason =>
      simp only [perform]
      split
      · rename_i sampler waiting
        refine ⟨?_, tracked.attempts⟩
        have started : ¬state.publishing = none := by
          rw [← tracked.unstarted, waiting]
          intro same
          cases same
        split <;> exact iff_of_false (fun same => by cases same) started
      · exact tracked
  | cancel =>
      rcases enabled.2 with idle | sending
      · rcases exists_of_idle idle with ⟨publishing, task, -⟩
        exact tracked.go task rfl rfl (.inl (tracked.attempts_of_idle idle))
      · rcases exists_of_inFlight sending with ⟨order, task⟩
        exact tracked.go task rfl rfl (.inr ⟨rfl, tracked.attempts_of_inFlight sending⟩)

private theorem Tracked.of_reached {Allowed : Load → LoadAction → Prop}
    (reached : load.Reached Allowed state) : state.Tracked := by
  apply reached.invariant Tracked
  · rintro _ rfl
    exact ⟨Iff.rfl.trans (iff_of_true rfl rfl), .inl rfl⟩
  · intro state action tracked _ enabled
    exact tracked.kept enabled

/-! ## Once it is told to stop -/

structure Stopping (state : Load) : Prop where
  tracked : state.Tracked
  told : state.stop = true

private theorem Stopping.kept {action : LoadAction} (stopping : state.Stopping)
    (enabled : state.Enabled action) : (state.perform action).Stopping where
  tracked := stopping.tracked.kept enabled
  told := by
    cases action with
    | stop => rfl
    | emit now writtenAt blocked reason =>
        simp only [perform]
        split <;> exact stopping.told
    | _ => exact stopping.told

/-- Each task is a step nearer to its end. -/
theorem Stopping.lighter {action : LoadAction} (stopping : state.Stopping)
    (own : action.own = true) (enabled : state.Enabled action) :
    (state.perform action).work < state.work := by
  have told := stopping.told
  cases action with
  | deliver => cases own
  | stop => cases own
  | start now =>
      have before : state.sampling = .before := enabled
      have none := stopping.tracked.unstarted.mp before
      simp [work, perform, before, none, told, Sampling.work, Publishing.work]
  | offer =>
      have going := enabled.2
      rw [told] at going
      cases going
  | answer outcome =>
      rcases exists_of_inFlight enabled with ⟨order, task⟩
      simp [work, perform, task, Publishing.work]
  | finish =>
      rcases exists_of_idle enabled.1 with ⟨publishing, task, idle⟩
      cases publishing <;> simp_all [work, perform, Publishing.work, Publishing.isIdle]
  | emit now writtenAt blocked reason =>
      cases sampling : state.sampling with
      | waiting sampler => simp [work, perform, sampling, told, Sampling.work]
      | _ => simp [Enabled, sampling, Sampling.isWaiting] at enabled
  | cancel =>
      rcases enabled.2 with idle | sending
      · rcases exists_of_idle idle with ⟨publishing, task, idle⟩
        cases publishing <;> simp_all [work, perform, Publishing.work, Publishing.isIdle]
      · rcases exists_of_inFlight sending with ⟨order, task⟩
        simp [work, perform, task, Publishing.work]

private theorem work_of_other {action : LoadAction} (other : action.own = false) :
    (state.perform action).work = state.work := by
  cases action with
  | deliver => rfl
  | stop => rfl
  | _ => cases other

private theorem Stopping.work_le (stopping : state.Stopping) : state.work ≤ 3 := by
  have tasked : (state.publishing.map Publishing.work).getD 0 ≤ 2 := by
    cases state.publishing with
    | none => exact Nat.zero_le _
    | some publishing => cases publishing <;> simp [Publishing.work]
  rw [work]
  cases sampling : state.sampling with
  | before =>
      rw [stopping.tracked.unstarted.mp sampling]
      exact Nat.le_succ _
  | waiting sampler =>
      rw [Sampling.work]
      omega
  | returned =>
      rw [Sampling.work]
      omega

/-- Nothing more is sent, and a reading is written where `sample` is still at its wait. -/
theorem Stopping.written {action : LoadAction} (stopping : state.Stopping)
    (enabled : state.Enabled action) :
    (state.perform action).number = state.number ∧
      (state.perform action).observations.length +
          (state.perform action).sampling.isWaiting.toNat =
        state.observations.length + state.sampling.isWaiting.toNat := by
  have told := stopping.told
  cases action with
  | start now =>
      have before : state.sampling = .before := enabled
      simp [perform, before, told, Sampling.isWaiting]
  | offer =>
      have going := enabled.2
      rw [told] at going
      cases going
  | emit now writtenAt blocked reason =>
      cases sampling : state.sampling with
      | waiting sampler => simp [perform, sampling, told, Sampling.isWaiting]
      | _ => simp [Enabled, sampling, Sampling.isWaiting] at enabled
  | _ => exact ⟨rfl, rfl⟩

def Over (state : Load) : Prop :=
  state.sampling = .returned ∧
    (state.publishing = some .finished ∨ state.publishing = some .cancelled)

instance (state : Load) : Decidable state.Over := inferInstanceAs (Decidable (_ ∧ _))

private theorem Over.silent (ended : state.Over) : state.idle = false ∧ state.inFlight = false := by
  rcases ended.2 with task | task
  · rw [Load.idle, inFlight, task]
    exact ⟨rfl, rfl⟩
  · rw [Load.idle, inFlight, task]
    exact ⟨rfl, rfl⟩

private theorem Over.still (ended : state.Over) :
    load.Still (TransitionSystem.byItself (·.own = true)) state := by
  change ∀ action : LoadAction, action.own = true → ¬state.Enabled action
  intro action own enabled
  have silent := ended.silent
  cases action with
  | deliver => cases own
  | stop => cases own
  | start now =>
      have before : state.sampling = .before := enabled
      rw [ended.1] at before
      cases before
  | offer => simp [Enabled, silent] at enabled
  | answer outcome => simp [Enabled, silent] at enabled
  | finish => simp [Enabled, silent] at enabled
  | emit now writtenAt blocked reason => simp [Enabled, ended.1, Sampling.isWaiting] at enabled
  | cancel => simp [Enabled, silent] at enabled

private theorem Stopping.ended (stopping : state.Stopping)
    (still : load.Still (TransitionSystem.byItself (·.own = true)) state) : state.Over := by
  change ∀ action : LoadAction, action.own = true → ¬state.Enabled action at still
  have returned : state.sampling = .returned := by
    cases sampling : state.sampling with
    | before => exact absurd sampling (still (.start 0) rfl)
    | waiting sampler =>
        have waits : state.sampling.isWaiting = true := by rw [sampling]; rfl
        exact absurd waits (still (.emit 0 "" none none) rfl)
    | returned => rfl
  refine ⟨returned, ?_⟩
  have idle : state.idle = false := by
    by_contra idle
    rw [Bool.not_eq_false] at idle
    exact still .finish rfl ⟨idle, stopping.told⟩
  have silent : state.inFlight = false := by
    by_contra sending
    rw [Bool.not_eq_false] at sending
    exact still (.answer .confirmed) rfl sending
  cases task : state.publishing with
  | none =>
      rw [← stopping.tracked.unstarted, returned] at task
      cases task
  | some publishing =>
      rw [Load.idle, task] at idle
      rw [inFlight, task] at silent
      cases publishing with
      | finished => exact .inl rfl
      | cancelled => exact .inr rfl
      | created => cases idle
      | sending order => cases silent
      | pausing => cases idle

end Load

/-- Once the stop event is set the load takes three steps more at most, whatever comes from the
broker in between: nothing more is sent, and when it can take no more `main` has returned, one
more reading has been written if `sample` was at its wait, and every send is in one of the
counters but for one that `main` cancelled. -/
theorem stopped_load_ends {state : Load}
    (reached : load.Reached TransitionSystem.anyStep state) (told : state.stop = true) :
    (∀ more last, load.Leads TransitionSystem.anyStep state more last →
      more.countP LoadAction.own ≤ 3 ∧ last.number = state.number ∧
      (load.Still (TransitionSystem.byItself (·.own = true)) last →
        last.Over ∧
        last.observations.length =
          state.observations.length + state.sampling.isWaiting.toNat ∧
        (last.counters.published = last.counters.ended ∨
          last.publishing = some .cancelled ∧
            last.counters.published = last.counters.ended + 1))) ∧
    ∃ more last, load.Leads (TransitionSystem.byItself (·.own = true)) state more last ∧
      load.Still (TransitionSystem.byItself (·.own = true)) last := by
  have stopping : state.Stopping := ⟨.of_reached reached, told⟩
  constructor
  · intro more last path
    have taken := path.taken_le LoadAction.own Load.Stopping Load.work
      (fun _ _ stopping _ enabled => stopping.kept enabled)
      (fun _ _ stopping own enabled => stopping.lighter own enabled)
      (fun _ _ _ other _ => (Load.work_of_other other).le) stopping
    have bound := stopping.work_le
    have held : last.Stopping ∧ last.number = state.number ∧
        last.observations.length + last.sampling.isWaiting.toNat =
          state.observations.length + state.sampling.isWaiting.toNat := by
      apply path.keeps fun last => last.Stopping ∧ last.number = state.number ∧
        last.observations.length + last.sampling.isWaiting.toNat =
          state.observations.length + state.sampling.isWaiting.toNat
      · intro last action held _ enabled
        have written := held.1.written enabled
        exact ⟨held.1.kept enabled, written.1.trans held.2.1, written.2.trans held.2.2⟩
      · exact ⟨stopping, rfl, rfl⟩
    refine ⟨by omega, held.2.1, ?_⟩
    intro still
    have ended := held.1.ended still
    have readings := held.2.2
    rw [ended.1] at readings
    refine ⟨ended, readings, ?_⟩
    rcases held.1.tracked.attempts with counted | cancelled
    · rw [ended.silent.2] at counted
      exact .inl counted
    · exact .inr cancelled
  · have down : load.RunsDown (TransitionSystem.byItself (·.own = true)) Load.Stopping
        Load.work :=
      ⟨fun _ _ stopping _ enabled => stopping.kept enabled,
        fun _ _ stopping own enabled => stopping.lighter own enabled⟩
    rcases down.settles stopping with ⟨more, last, path, -, still⟩
    exact ⟨more, last, path, still⟩

/-- A send is in flight when the load is told to stop, and `main` cancels it. -/
theorem send_cancelled_on_the_way_out : ∃ last : Load,
    last.number = 1 ∧ last.Over ∧ last.observations.length = 1 ∧
      last.counters.published = last.counters.ended + 1 := by
  have reached := TransitionSystem.Reached.of_isSome_run load TransitionSystem.anyStep
    (.start rfl) [.start 10, .offer, .stop] (by decide +kernel)
  have ends := (stopped_load_ends reached (by decide +kernel)).1 _ _
    (.of_isSome_run load TransitionSystem.anyStep
      [.emit 11 "2025-11-02T10:00:01Z" none none, .deliver, .cancel] (by decide +kernel))
  rcases ends.2.2 (Load.Over.still (by decide +kernel)) with ⟨ended, readings, attempts⟩
  refine ⟨_, ends.2.1, ended, readings, ?_⟩
  exact (attempts.resolve_left (by decide +kernel)).2

end AmqpApps.StandingLoad
