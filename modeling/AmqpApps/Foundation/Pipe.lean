import AmqpApps.Foundation.TransitionSystem
import Mathlib.Data.List.Infix

/-! # A program that stops reading

Two programs joined by a pipe, which holds so much at a time. The first writes a text and
returns. The second reads until it has read enough, or all there is, and leaves; a program
that writes to a pipe nobody reads is killed.
-/

namespace AmqpApps

variable {Item : Type u}

/-- What is searched for. A program that has read `enough` reads no more; one that has
read everything goes by what it `holds`. -/
structure Search (Item : Type u) where
  enough : List Item → Bool
  holds : List Item → Bool
  enough_mono : ∀ {part text : List Item}, part <+: text → enough part = true →
    enough text = true
  holds_of_enough : ∀ {text : List Item}, enough text = true → holds text = true

inductive Writer
  | running
  | returned
  | killed
deriving DecidableEq

structure Pipeline (Item : Type u) where
  /-- What is yet to be written. -/
  remaining : List Item
  /-- What the pipe holds. -/
  held : List Item
  taken : List Item
  writer : Writer
  /-- What the second program answers when it leaves. -/
  answer : Option Bool
deriving DecidableEq

inductive PipeStep
  | write (count : Nat)
  /-- The first program returns. -/
  | close
  /-- It is killed. -/
  | kill
  | read (count : Nat)
  /-- The second program has read enough. -/
  | leave
  /-- It is at the end of what there is. -/
  | finish
deriving DecidableEq

namespace Pipeline

def start (text : List Item) : Pipeline Item := ⟨text, [], [], .running, none⟩

def Enabled (search : Search Item) (room : Nat) (state : Pipeline Item) : PipeStep → Prop
  | .write count =>
      state.writer = .running ∧ state.answer = none ∧
        0 < count ∧ count ≤ state.remaining.length ∧ state.held.length + count ≤ room
  | .close => state.writer = .running ∧ state.remaining.isEmpty = true
  | .kill =>
      state.writer = .running ∧ state.answer ≠ none ∧ state.remaining.isEmpty = false
  | .read count =>
      state.answer = none ∧ search.enough state.taken = false ∧
        0 < count ∧ count ≤ state.held.length
  | .leave => state.answer = none ∧ search.enough state.taken = true
  | .finish =>
      state.answer = none ∧ search.enough state.taken = false ∧
        state.held.isEmpty = true ∧ state.writer ≠ .running

instance (search : Search Item) (room : Nat) (state : Pipeline Item) (step : PipeStep) :
    Decidable (state.Enabled search room step) := by
  rcases step with ⟨⟩ <;> unfold Enabled <;> infer_instance

def perform (search : Search Item) (state : Pipeline Item) : PipeStep → Pipeline Item
  | .write count =>
      { state with
        remaining := state.remaining.drop count
        held := state.held ++ state.remaining.take count }
  | .close => { state with writer := .returned }
  | .kill => { state with writer := .killed }
  | .read count =>
      { state with
        held := state.held.drop count
        taken := state.taken ++ state.held.take count }
  | .leave => { state with answer := some true }
  | .finish => { state with answer := some (search.holds state.taken) }

def Ended (state : Pipeline Item) : Prop :=
  state.writer ≠ .running ∧ state.answer.isSome = true

instance (state : Pipeline Item) : Decidable state.Ended :=
  inferInstanceAs (Decidable (_ ∧ _))

def succeeds (state : Pipeline Item) : Bool :=
  state.writer == .returned && state.answer == some true

end Pipeline

def pipeline (search : Search Item) (room : Nat) (text : List Item) :
    TransitionSystem (Pipeline Item) PipeStep where
  Initial state := state = .start text
  Enabled := Pipeline.Enabled search room
  perform := Pipeline.perform search

instance (search : Search Item) (room : Nat) (text : List Item) (state : Pipeline Item)
    (step : PipeStep) : Decidable ((pipeline search room text).Enabled state step) :=
  inferInstanceAs (Decidable (state.Enabled search room step))

namespace Pipeline

variable {search : Search Item} {room : Nat} {text : List Item} {state : Pipeline Item}

/-- Nothing is lost on the way, and nobody stops early but for having read enough. -/
structure Sound (search : Search Item) (room : Nat) (text : List Item)
    (state : Pipeline Item) : Prop where
  whole : state.taken ++ (state.held ++ state.remaining) = text
  bounded : state.held.length ≤ room
  /-- What is read past the point where there is enough was in the pipe by then. -/
  eager : ∀ part : List Item, part <+: text → search.enough part = true →
    state.taken.length ≤ part.length + room
  returned : state.writer = .returned → state.remaining = []
  killed : state.writer = .killed →
    state.answer = some true ∧ search.enough state.taken = true ∧ state.remaining ≠ []
  answered : ∀ answer, state.answer = some answer → answer = search.holds text ∧
    (state.writer = .running → search.enough state.taken = true)

namespace Sound

theorem holds_text (sound : Sound search room text state)
    (enough : search.enough state.taken = true) : search.holds text = true := by
  apply search.holds_of_enough
  apply search.enough_mono _ enough
  rw [← sound.whole]
  exact List.prefix_append _ _

theorem taken_lt (sound : Sound search room text state) {part : List Item}
    (early : part <+: text) (enough : search.enough part = true)
    (wanting : search.enough state.taken = false) : state.taken.length < part.length := by
  by_contra longer
  have within : part <+: state.taken := by
    have both : state.taken <+: text := by
      rw [← sound.whole]
      exact List.prefix_append _ _
    exact List.prefix_of_prefix_length_le early both (by omega)
  rw [search.enough_mono within enough] at wanting
  cases wanting

theorem step (sound : Sound search room text state) {step : PipeStep}
    (enabled : state.Enabled search room step) :
    Sound search room text (state.perform search step) := by
  cases step with
  | write count =>
      rcases enabled with ⟨running, unanswered, -, -, fits⟩
      refine ⟨?_, ?_, sound.eager, ?_, ?_, ?_⟩
      · simp only [perform]
        rw [List.append_assoc, List.take_append_drop]
        exact sound.whole
      · simp only [perform, List.length_append, List.length_take]
        omega
      · intro returned
        rw [perform, running] at returned
        cases returned
      · intro killed
        rw [perform, running] at killed
        cases killed
      · intro answer answered
        rw [perform, unanswered] at answered
        cases answered
  | close =>
      refine ⟨sound.whole, sound.bounded, sound.eager, ?_, ?_, ?_⟩
      · intro _
        exact List.isEmpty_iff.mp enabled.2
      · intro killed
        cases killed
      · intro answer answered
        exact ⟨(sound.answered answer answered).1, by intro running; cases running⟩
  | kill =>
      rcases enabled with ⟨running, answered, left⟩
      refine ⟨sound.whole, sound.bounded, sound.eager, ?_, ?_, ?_⟩
      · intro returned
        cases returned
      · intro _
        rcases Option.ne_none_iff_exists'.mp answered with ⟨answer, given⟩
        have before := sound.answered answer given
        have enough := before.2 running
        refine ⟨?_, enough, List.isEmpty_eq_false_iff.mp left⟩
        rw [perform, given, before.1, sound.holds_text enough]
      · intro answer answered
        exact ⟨(sound.answered answer answered).1, by intro running; cases running⟩
  | read count =>
      rcases enabled with ⟨unanswered, wanting, -, -⟩
      refine ⟨?_, ?_, ?_, sound.returned, ?_, ?_⟩
      · simp only [perform]
        rw [List.append_assoc, ← List.append_assoc _ (List.drop _ _), List.take_append_drop]
        exact sound.whole
      · simp only [perform, List.length_drop]
        exact le_trans (Nat.sub_le _ _) sound.bounded
      · intro part early enough
        have before := sound.taken_lt early enough wanting
        have bounded := sound.bounded
        simp only [perform, List.length_append, List.length_take]
        omega
      · intro killed
        rw [perform] at killed
        rw [(sound.killed killed).2.1] at wanting
        cases wanting
      · intro answer answered
        rw [perform, unanswered] at answered
        cases answered
  | leave =>
      rcases enabled with ⟨unanswered, enough⟩
      refine ⟨sound.whole, sound.bounded, sound.eager, sound.returned, ?_, ?_⟩
      · intro killed
        exact ⟨rfl, (sound.killed killed).2⟩
      · intro answer answered
        cases answered
        exact ⟨(sound.holds_text enough).symm, fun _ => enough⟩
  | finish =>
      rcases enabled with ⟨unanswered, wanting, empty, ended⟩
      have alive : state.writer ≠ .killed := by
        intro killed
        rw [(sound.killed killed).1] at unanswered
        cases unanswered
      have returned : state.writer = .returned := by
        cases writer : state.writer with
        | running => exact absurd writer ended
        | returned => rfl
        | killed => exact absurd writer alive
      refine ⟨sound.whole, sound.bounded, sound.eager, sound.returned, ?_, ?_⟩
      · intro killed
        exact absurd killed alive
      · intro answer answered
        cases answered
        have all := sound.whole
        rw [sound.returned returned, List.isEmpty_iff.mp empty, List.append_nil,
          List.append_nil] at all
        exact ⟨by rw [all], fun running => absurd running ended⟩

theorem of_reached {Allowed : Pipeline Item → PipeStep → Prop}
    (reached : (pipeline search room text).Reached Allowed state) :
    Sound search room text state := by
  apply reached.invariant (Sound search room text)
  · rintro _ rfl
    refine ⟨rfl, Nat.zero_le _, fun _ _ _ => Nat.zero_le _, ?_, ?_, ?_⟩
    · intro returned
      cases returned
    · intro killed
      cases killed
    · intro answer answered
      cases answered
  · intro state step sound _ enabled
    exact sound.step enabled

end Sound

/-- The second program always answers rightly, but the pipeline fails where the first was
killed for writing on. -/
theorem succeeds_iff {Allowed : Pipeline Item → PipeStep → Prop}
    (reached : (pipeline search room text).Reached Allowed state) (ended : state.Ended) :
    state.succeeds = true ↔ search.holds text = true ∧ state.writer ≠ .killed := by
  have sound := Sound.of_reached reached
  rcases Option.isSome_iff_exists.mp ended.2 with ⟨answer, answered⟩
  have right := (sound.answered answer answered).1
  rw [succeeds, answered, right]
  cases writer : state.writer with
  | running => exact absurd writer ended.1
  | returned => simp
  | killed => simp

/-- It is killed only where there was enough before the end. -/
theorem enough_of_killed {Allowed : Pipeline Item → PipeStep → Prop}
    (reached : (pipeline search room text).Reached Allowed state)
    (killed : state.writer = .killed) :
    ∃ part : List Item, part <+: text ∧ part ≠ text ∧ search.enough part = true := by
  have sound := Sound.of_reached reached
  rcases sound.killed killed with ⟨-, enough, left⟩
  refine ⟨state.taken, ?_, ?_, enough⟩
  · rw [← sound.whole]
    exact List.prefix_append _ _
  · intro all
    have whole := sound.whole
    rw [← all] at whole
    have nothing := List.append_right_eq_self.mp whole
    exact left (List.append_eq_nil_iff.mp nothing).2

theorem holds_of_killed {Allowed : Pipeline Item → PipeStep → Prop}
    (reached : (pipeline search room text).Reached Allowed state)
    (killed : state.writer = .killed) : search.holds text = true := by
  rcases enough_of_killed reached killed with ⟨part, early, -, enough⟩
  exact search.holds_of_enough (search.enough_mono early enough)

/-- And always where more follows than the pipe can hold twice. -/
theorem killed_of_long {Allowed : Pipeline Item → PipeStep → Prop}
    (reached : (pipeline search room text).Reached Allowed state) (ended : state.Ended)
    {part rest : List Item} (whole : part ++ rest = text) (enough : search.enough part = true)
    (long : 2 * room < rest.length) : state.writer = .killed := by
  have sound := Sound.of_reached reached
  have early : part <+: text := ⟨rest, whole⟩
  cases writer : state.writer with
  | running => exact absurd writer ended.1
  | killed => rfl
  | returned =>
      have eager := sound.eager part early enough
      have bounded := sound.bounded
      have lengths := congrArg List.length sound.whole
      rw [sound.returned writer, List.append_nil, List.length_append, ← whole,
        List.length_append] at lengths
      omega

end Pipeline

end AmqpApps
