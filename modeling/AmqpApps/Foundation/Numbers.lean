import Mathlib.Data.Finmap
import Mathlib.Data.List.Induction
import Mathlib.Data.Rat.Defs
import Mathlib.Algebra.BigOperators.Group.List.Basic
import Mathlib.Algebra.Order.Ring.Int

/-! # Numbers of Python, and how they are added up

An `int` has no bound and a `float` is a double. Where the two meet in a sum the `int` is made
a `float` first, which raises if it is too large for one.
-/

namespace AmqpApps

inductive Number
  | int (value : Int)
  | float (value : Float)

/-- The double nearest to a rational, ties to even. Too large a one is infinite. -/
def nearest (value : ℚ) : Float :=
  .ofModel (.pack
    (if zero : value.num = 0 then .zero .positive
    else
      .div .binary64
        (.finite (if value.num < 0 then .negative else .positive) value.num.natAbs 0
          (Int.natAbs_pos.mpr zero))
        (.finite .positive value.den 0 value.den_pos)))

def exactly (value : Float) : Option ℚ :=
  match value.toModel.unpack with
  | .zero _ => some 0
  | .finite sign mantissa exponent _ =>
      let size : ℚ := mantissa * 2 ^ exponent
      some (match sign with
        | .positive => size
        | .negative => -size)
  | .infinity _ | .notANumber => none

/-- The double that an `int` is made, or `none` for an `OverflowError`. -/
def asFloat (value : Int) : Option Float :=
  let rounded := Float.ofModel (.ofInt value)
  if rounded.isFinite then some rounded else none

def Fits (value : Int) : Prop := (asFloat value).isSome = true

instance (value : Int) : Decidable (Fits value) := inferInstanceAs (Decidable (_ = true))

/-- The first integer that is too large lies half way to `2 ^ 1024`. -/
example : ¬Fits (2 ^ 1024 - 2 ^ 970) ∧ Fits (2 ^ 1024 - 2 ^ 970 - 1) := by decide +kernel

example : nearest 0.1 + nearest 0.2 ≠ nearest 0.3 := by decide +kernel

namespace Number

/-- `+`, or `none` for an `OverflowError`. -/
def plus : Number → Number → Option Number
  | int first, int second => some (int (first + second))
  | int first, float second => (asFloat first).map fun first => float (first + second)
  | float first, int second => (asFloat second).map fun second => float (first + second)
  | float first, float second => some (float (first + second))

def isFloat : Number → Bool
  | int _ => false
  | float _ => true

def sum (amounts : List Number) : Option Number := amounts.foldlM plus (int 0)

def intTotal (amounts : List Number) : Int :=
  (amounts.map fun amount =>
    match amount with
    | int value => value
    | float _ => 0).sum

/-- A number can be added after these: the first `float`, if their sum fits, and an `int` after
a `float`, if it fits itself. -/
def Addable (before : List Number) : Number → Prop
  | float _ => (∀ earlier ∈ before, earlier.isFloat = false) → Fits (intTotal before)
  | int value => (∃ earlier ∈ before, earlier.isFloat = true) → Fits value

def Summable (amounts : List Number) : Prop :=
  ∀ before amount, before ++ [amount] <+: amounts → Addable before amount

theorem sum_concat (amounts : List Number) (amount : Number) :
    sum (amounts ++ [amount]) = (sum amounts).bind fun total => total.plus amount := by
  rw [sum, List.foldlM_append]
  cases added : amounts.foldlM plus (int 0) with
  | none => simp [sum, added]
  | some total => simp [sum, added]

/-- A sum is a `float` from the first `float` on. -/
private theorem sum_kind {amounts : List Number} {total : Number}
    (added : sum amounts = some total) :
    ((∀ amount ∈ amounts, amount.isFloat = false) ∧ total = int (intTotal amounts)) ∨
      (∃ amount ∈ amounts, amount.isFloat = true) ∧ total.isFloat = true := by
  induction amounts using List.reverseRecOn generalizing total with
  | nil =>
      cases added
      exact .inl ⟨nofun, rfl⟩
  | append_singleton amounts amount induction =>
      rw [sum_concat] at added
      rcases Option.bind_eq_some_iff.mp added with ⟨before, sofar, plus⟩
      rcases induction sofar with ⟨ints, same⟩ | ⟨⟨first, member, isFloat⟩, floats⟩
      · subst same
        cases amount with
        | int value =>
            cases plus
            refine .inl ⟨?_, by simp [intTotal]⟩
            intro other member
            rcases List.mem_append.mp member with earlier | last
            · exact ints other earlier
            · rw [List.mem_singleton.mp last]
              rfl
        | float value =>
            rcases Option.map_eq_some_iff.mp plus with ⟨rounded, -, same⟩
            rw [← same]
            exact .inr ⟨⟨float value, by simp, rfl⟩, rfl⟩
      · refine .inr ⟨⟨first, List.mem_append_left _ member, isFloat⟩, ?_⟩
        cases before with
        | int value => cases floats
        | float value =>
            cases amount with
            | int more =>
                rcases Option.map_eq_some_iff.mp plus with ⟨rounded, -, same⟩
                rw [← same]
                rfl
            | float more =>
                cases plus
                rfl

theorem plus_isSome_iff {amounts : List Number} {total : Number}
    (added : sum amounts = some total) (amount : Number) :
    (total.plus amount).isSome = true ↔ Addable amounts amount := by
  rcases sum_kind added with ⟨ints, same⟩ | ⟨⟨first, member, isFloat⟩, floats⟩
  · subst same
    cases amount with
    | int value =>
        refine iff_of_true rfl ?_
        rintro ⟨earlier, member, isFloat⟩
        rw [ints earlier member] at isFloat
        cases isFloat
    | float value =>
        simp only [plus, Option.isSome_map, Addable, Fits]
        exact ⟨fun fits _ => fits, fun fits => fits ints⟩
  · cases total with
    | int value => cases floats
    | float value =>
        cases amount with
        | int more =>
            simp only [plus, Option.isSome_map, Addable, Fits]
            exact ⟨fun fits _ => fits, fun fits => fits ⟨first, member, isFloat⟩⟩
        | float more =>
            refine iff_of_true rfl ?_
            intro ints
            rw [ints first member] at isFloat
            cases isFloat

private theorem summable_concat (amounts : List Number) (amount : Number) :
    Summable (amounts ++ [amount]) ↔ Summable amounts ∧ Addable amounts amount := by
  constructor
  · intro summable
    refine ⟨?_, summable amounts amount List.prefix_rfl⟩
    intro before next early
    exact summable before next (early.trans (List.prefix_append _ _))
  · rintro ⟨summable, addable⟩ before next early
    rcases List.prefix_concat_iff.mp early with same | shorter
    · rcases List.append_inj' same rfl with ⟨rfl, last⟩
      cases last
      exact addable
    · exact summable before next shorter

/-- Numbers can be added up where each can be added after those before it. -/
theorem sum_isSome_iff (amounts : List Number) :
    (sum amounts).isSome = true ↔ Summable amounts := by
  induction amounts using List.reverseRecOn with
  | nil =>
      refine iff_of_true rfl ?_
      intro before amount early
      simp at early
  | append_singleton amounts amount induction =>
      rw [summable_concat, ← induction, sum_concat]
      cases added : sum amounts with
      | none => simp
      | some total => simp [plus_isSome_iff added]

end Number

/-! ## A number for each key -/

/-- A dictionary that counts from zero. -/
@[reducible] def Numbers (Key : Type u) := Finmap fun _ : Key => Number

namespace Numbers

variable {Key : Type u} [DecidableEq Key]

def of (numbers : Numbers Key) (key : Key) : Number := (numbers.lookup key).getD (.int 0)

/-- `+=` under a key, or `none` for an `OverflowError`. -/
def add (numbers : Numbers Key) (line : Key × Number) : Option (Numbers Key) :=
  ((numbers.of line.1).plus line.2).map (numbers.insert line.1)

def addAll (numbers : Numbers Key) (lines : List (Key × Number)) : Option (Numbers Key) :=
  lines.foldlM add numbers

def amountsFor (key : Key) (lines : List (Key × Number)) : List Number :=
  (lines.filter fun line => line.1 = key).map Prod.snd

theorem amountsFor_concat (key : Key) (lines : List (Key × Number)) (line : Key × Number) :
    amountsFor key (lines ++ [line]) =
      if line.1 = key then amountsFor key lines ++ [line.2] else amountsFor key lines := by
  by_cases same : line.1 = key <;> simp [amountsFor, same]

theorem addAll_concat (numbers : Numbers Key) (lines : List (Key × Number))
    (line : Key × Number) :
    numbers.addAll (lines ++ [line]) = (numbers.addAll lines).bind fun sums => sums.add line := by
  rw [addAll, List.foldlM_append]
  cases added : lines.foldlM add numbers with
  | none => simp [addAll, added]
  | some sums => simp [addAll, added]

/-- Each key counts for the sum of its own amounts. -/
theorem sum_amountsFor {lines : List (Key × Number)} {sums : Numbers Key}
    (added : addAll ∅ lines = some sums) (key : Key) :
    Number.sum (amountsFor key lines) = some (sums.of key) := by
  induction lines using List.reverseRecOn generalizing sums with
  | nil =>
      cases added
      rfl
  | append_singleton lines line induction =>
      rw [addAll_concat] at added
      rcases Option.bind_eq_some_iff.mp added with ⟨before, sofar, plus⟩
      rcases Option.map_eq_some_iff.mp plus with ⟨total, totalled, rfl⟩
      have earlier := induction sofar
      rw [amountsFor_concat]
      split
      · rename_i same
        subst same
        rw [Number.sum_concat, earlier, Option.bind_some, totalled, of, Finmap.lookup_insert]
        rfl
      · rename_i other
        rw [earlier, of, of, Finmap.lookup_insert_of_ne _ (Ne.symm other)]

/-- Lines can be added up where those of each key can. -/
theorem addAll_isSome_iff (lines : List (Key × Number)) :
    (addAll ∅ lines).isSome = true ↔ ∀ key, Number.Summable (amountsFor key lines) := by
  induction lines using List.reverseRecOn with
  | nil => exact iff_of_true rfl fun key => (Number.sum_isSome_iff []).mp rfl
  | append_singleton lines line induction =>
      rw [addAll_concat]
      cases added : addAll ∅ lines with
      | none =>
          refine iff_of_false (by simp) ?_
          intro summable
          rw [added] at induction
          have before : ∀ key, Number.Summable (amountsFor key lines) := by
            intro key
            have mine := summable key
            rw [amountsFor_concat] at mine
            split at mine
            · exact ((Number.summable_concat _ _).mp mine).1
            · exact mine
          cases induction.mpr before
      | some sums =>
          rw [added] at induction
          have before := induction.mp rfl
          have next := Number.plus_isSome_iff (sum_amountsFor added line.1) line.2
          rw [Option.bind_some, add, Option.isSome_map, next]
          constructor
          · intro addable key
            rw [amountsFor_concat]
            split
            · rename_i same
              subst same
              exact (Number.summable_concat _ _).mpr ⟨before line.1, addable⟩
            · exact before key
          · intro summable
            have mine := summable line.1
            rw [amountsFor_concat, if_pos rfl] at mine
            exact ((Number.summable_concat _ _).mp mine).2

end Numbers

end AmqpApps
