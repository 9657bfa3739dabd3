import AmqpApps.Foundation.TransitionSystem
import Mathlib.Algebra.Order.Field.Rat

/-! # A standing load

One task publishes, another samples, and the consumer's handler counts. They share five
counters and a stop event, and nothing interrupts any of them between two awaits.
-/

namespace AmqpApps.StandingLoad

structure Counters where
  published : Nat
  confirmed : Nat
  consumed : Nat
  refused : Nat
  failed : Nat
deriving DecidableEq

def Counters.new : Counters := ⟨0, 0, 0, 0, 0⟩

/-! ## Publishing -/

/-- What becomes of `asyncio.wait_for(publisher.send(..), timeout=5)`, cancellation apart. -/
inductive SendOutcome
  | confirmed
  /-- `PublishingPausedError`. -/
  | paused
  /-- `asyncio.TimeoutError`. -/
  | timeout
  | exception
deriving DecidableEq

def Counters.answered (counters : Counters) : SendOutcome → Counters
  | .confirmed => { counters with confirmed := counters.confirmed + 1 }
  | .paused => { counters with refused := counters.refused + 1 }
  | .timeout => { counters with failed := counters.failed + 1 }
  | .exception => { counters with failed := counters.failed + 1 }

inductive Publishing
  /-- It has not run yet. -/
  | created
  | sending (order : String)
  | pausing
  | finished
  | cancelled
deriving DecidableEq

def Publishing.isSending : Publishing → Bool
  | sending _ => true
  | _ => false

def Publishing.isIdle : Publishing → Bool
  | created | pausing => true
  | _ => false

/-! ## Sampling -/

/-- A line. What is omitted from it is `none`. -/
structure Reading where
  writtenAt : String
  elapsedMs : Int
  counters : Counters
  blocked : Option Bool
  reason : Option String
  publishRate : Option ℚ
  consumeRate : Option ℚ
deriving DecidableEq

structure Sampler where
  started : ℚ
  last : ℚ
  lastConfirmed : Nat
  lastConsumed : Nat
deriving DecidableEq

def Sampler.new (now : ℚ) : Sampler := ⟨now, now, 0, 0⟩

/-- `int` of a number that is not whole. -/
def truncate (number : ℚ) : Int := number.num.tdiv number.den

def ratePer (elapsed : ℚ) (count last : Nat) : Option ℚ :=
  if 0 < elapsed then some (((count : ℚ) - last) / elapsed) else none

def Sampler.emit (sampler : Sampler) (counters : Counters) (now : ℚ) (writtenAt : String)
    (blocked : Option Bool) (reason : Option String) : Sampler × Reading :=
  let elapsed := now - sampler.last
  ({ sampler with
      last := now
      lastConfirmed := counters.confirmed
      lastConsumed := counters.consumed },
    { writtenAt := writtenAt
      elapsedMs := truncate ((now - sampler.started) * 1000)
      counters := counters
      blocked := blocked
      reason := reason.filter (· ≠ "")
      publishRate := ratePer elapsed counters.confirmed sampler.lastConfirmed
      consumeRate := ratePer elapsed counters.consumed sampler.lastConsumed })

inductive Sampling
  | before
  | waiting (sampler : Sampler)
  | returned
deriving DecidableEq

def Sampling.isWaiting : Sampling → Bool
  | waiting _ => true
  | _ => false

/-! ## The system -/

/-- A reading, with its interval and whether a send was in flight. -/
structure Observation where
  reading : Reading
  interval : ℚ
  inFlight : Bool
deriving DecidableEq

structure Load where
  counters : Counters
  stop : Bool
  /-- How many orders `publish` has numbered. -/
  number : Nat
  /-- There is no task until `main` comes to `sample`. -/
  publishing : Option Publishing
  sampling : Sampling
  observations : List Observation

inductive LoadAction
  /-- The consumer's handler runs. -/
  | deliver
  /-- A signal, or the end of the seconds to run. -/
  | stop
  /-- `main` creates the task of `publish` and goes into `sample`. -/
  | start (now : ℚ)
  /-- `publish` goes round its loop to the next send. -/
  | offer
  /-- The send comes to an end. -/
  | answer (outcome : SendOutcome)
  /-- `publish` finds the stop event set. -/
  | finish
  /-- The wait of `sample` ends. -/
  | emit (now : ℚ) (writtenAt : String) (blocked : Option Bool) (reason : Option String)
  /-- The cancellation by `main` takes effect. -/
  | cancel
deriving DecidableEq

namespace Load

def initial : Load := ⟨.new, false, 0, none, .before, []⟩

def inFlight (state : Load) : Bool := state.publishing.any Publishing.isSending

def idle (state : Load) : Bool := state.publishing.any Publishing.isIdle

def Enabled (state : Load) : LoadAction → Prop
  | .deliver | .stop => True
  | .start _ => state.sampling = .before
  | .offer => state.idle = true ∧ state.stop = false
  | .answer _ => state.inFlight = true
  | .finish => state.idle = true ∧ state.stop = true
  | .emit .. => state.sampling.isWaiting = true
  | .cancel => state.sampling = .returned ∧ (state.idle = true ∨ state.inFlight = true)

instance (state : Load) (action : LoadAction) : Decidable (state.Enabled action) := by
  rcases action with ⟨⟩ <;> unfold Enabled <;> infer_instance

def perform (state : Load) : LoadAction → Load
  | .deliver =>
      { state with
        counters := { state.counters with consumed := state.counters.consumed + 1 } }
  | .stop => { state with stop := true }
  | .start now =>
      { state with
        publishing := some .created
        sampling := if state.stop then .returned else .waiting (.new now) }
  | .offer =>
      { state with
        number := state.number + 1
        counters := { state.counters with published := state.counters.published + 1 }
        publishing := some (.sending s!"o-{state.number + 1}") }
  | .answer outcome =>
      { state with
        counters := state.counters.answered outcome
        publishing := some .pausing }
  | .finish => { state with publishing := some .finished }
  | .emit now writtenAt blocked reason =>
      match state.sampling with
      | .waiting sampler =>
          let ran := sampler.emit state.counters now writtenAt blocked reason
          { state with
            sampling := if state.stop then .returned else .waiting ran.1
            observations := state.observations ++
              [⟨ran.2, now - sampler.last, state.inFlight⟩] }
      | _ => state
  | .cancel => { state with publishing := some .cancelled }

end Load

def load : TransitionSystem Load LoadAction where
  Initial state := state = Load.initial
  Enabled := Load.Enabled
  perform := Load.perform

instance (state : Load) (action : LoadAction) : Decidable (load.Enabled state action) :=
  inferInstanceAs (Decidable (state.Enabled action))

end AmqpApps.StandingLoad
