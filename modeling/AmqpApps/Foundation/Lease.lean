import Mathlib.Logic.Function.Basic
import Mathlib.Order.Lattice

/-! # Leases

A store in which a key is claimed before some work and confirmed after it. A
claim that is not confirmed lapses, so that a claimant who died does not hold
its key for good; a confirmation may be forgotten after a retention.
-/

namespace AmqpApps.Lease

variable {Key : Type u} {Time : Type v}

/-- Without a retention a confirmation stands for good. -/
structure Terms (Time : Type v) where
  claimTimeout : Time
  retention : Option Time

inductive Mark (Time : Type v)
  | claimed (since : Time)
  | confirmed (since : Time)
deriving DecidableEq

@[reducible] def Store (Key : Type u) (Time : Type v) := Key → Option (Mark Time)

def Store.empty : Store Key Time := fun _ => none

def confirm [DecidableEq Key] (store : Store Key Time) (now : Time) (key : Key) :
    Store Key Time :=
  Function.update store key (some (.confirmed now))

theorem confirmed_of_confirm [DecidableEq Key] {store : Store Key Time} {now since : Time}
    {key other : Key} (confirmed : confirm store now key other = some (.confirmed since)) :
    other = key ∨ store other = some (.confirmed since) := by
  by_cases same : other = key
  · exact .inl same
  · exact .inr (by simpa [confirm, Function.update_of_ne same] using confirmed)

variable [LinearOrder Time] [Add Time]

def Mark.Stands (terms : Terms Time) (now : Time) : Mark Time → Prop
  | claimed since => now < since + terms.claimTimeout
  | confirmed since => ∀ retention ∈ terms.retention, now < since + retention

instance (terms : Terms Time) (now : Time) (mark : Mark Time) :
    Decidable (mark.Stands terms now) := by
  rcases mark with ⟨⟩ <;> unfold Mark.Stands <;> infer_instance

def Mark.pending : Mark Time → Bool
  | claimed _ => true
  | confirmed _ => false

def Taken (terms : Terms Time) (store : Store Key Time) (now : Time) (key : Key) : Prop :=
  ∃ mark ∈ store key, mark.Stands terms now

instance (terms : Terms Time) (store : Store Key Time) (now : Time) (key : Key) :
    Decidable (Taken terms store now key) := by
  unfold Taken
  infer_instance

variable [DecidableEq Key]

def firstTime (terms : Terms Time) (store : Store Key Time) (now : Time) (key : Key) :
    Bool × Store Key Time :=
  if Taken terms store now key then (false, store)
  else (true, Function.update store key (some (.claimed now)))

theorem firstTime_of_taken {terms : Terms Time} {store : Store Key Time} {now : Time} {key : Key}
    (taken : Taken terms store now key) : firstTime terms store now key = (false, store) :=
  if_pos taken

theorem firstTime_of_free {terms : Terms Time} {store : Store Key Time} {now : Time} {key : Key}
    (free : ¬Taken terms store now key) :
    firstTime terms store now key = (true, Function.update store key (some (.claimed now))) :=
  if_neg free

/-- A key is confirmed after a claim only if it was before. -/
theorem confirmed_before_firstTime {terms : Terms Time} {store : Store Key Time}
    {now since : Time} {key other : Key}
    (confirmed : (firstTime terms store now key).2 other = some (.confirmed since)) :
    store other = some (.confirmed since) := by
  rw [firstTime] at confirmed
  split at confirmed
  · exact confirmed
  · by_cases same : other = key
    · subst same
      simp at confirmed
    · simpa [Function.update_of_ne same] using confirmed

end AmqpApps.Lease
