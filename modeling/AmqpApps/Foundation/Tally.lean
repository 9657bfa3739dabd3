import Mathlib.Data.Finmap
import Mathlib.Algebra.BigOperators.Group.Finset.Basic
import Mathlib.Algebra.BigOperators.Group.List.Basic

/-! # Dictionaries of running totals

A dictionary that counts an absent key as zero and is changed only by adding
to a key. Two tallies are equal when they hold the same keys with the same
amounts, in whatever order the keys were first added.
-/

namespace AmqpApps

/-- A sum over keys of which one is added to, the others being left alone. -/
theorem sum_changed_at [DecidableEq Key] [AddCommMonoid Amount] {keys : Finset Key}
    {before after : Key → Amount} {key : Key} {amount : Amount}
    (others : ∀ other, other ≠ key → after other = before other)
    (changed : after key = before key + amount) (absent : key ∉ keys → before key = 0) :
    ∑ other ∈ insert key keys, after other = ∑ other ∈ keys, before other + amount := by
  have unchanged : ∑ other ∈ keys.erase key, after other =
      ∑ other ∈ keys.erase key, before other :=
    Finset.sum_congr rfl fun other member => others other (Finset.ne_of_mem_erase member)
  have split : insert key keys = insert key (keys.erase key) := by
    ext other
    by_cases same : other = key <;> simp [same]
  rw [split, Finset.sum_insert (Finset.notMem_erase _ _), unchanged, changed]
  by_cases present : key ∈ keys
  · rw [← Finset.add_sum_erase _ _ present, add_right_comm]
  · rw [Finset.erase_eq_of_notMem present, absent present, zero_add, add_comm]

@[reducible] def Tally (Key : Type u) (Amount : Type v) :=
  Finmap fun _ : Key => Amount

def amountFor [DecidableEq Key] [Zero Amount] (key : Key)
    (line : Key × Amount) : Amount :=
  if line.1 = key then line.2 else 0

@[simp] theorem amountFor_self [DecidableEq Key] [Zero Amount] (key : Key)
    (amount : Amount) : amountFor key (key, amount) = amount := by
  simp [amountFor]

theorem amountFor_other [DecidableEq Key] [Zero Amount] {key other : Key}
    (amount : Amount) (different : other ≠ key) :
    amountFor key (other, amount) = 0 := by
  simp [amountFor, different]

namespace Tally

variable {Key : Type u} {Amount : Type v} [DecidableEq Key]
variable [AddCommMonoid Amount]

def of (tally : Tally Key Amount) (key : Key) : Amount :=
  (tally.lookup key).getD 0

def add (tally : Tally Key Amount) (line : Key × Amount) : Tally Key Amount :=
  tally.insert line.1 (tally.of line.1 + line.2)

def addAll (tally : Tally Key Amount) (lines : List (Key × Amount)) :
    Tally Key Amount :=
  lines.foldl add tally

def total (tally : Tally Key Amount) : Amount :=
  ∑ key ∈ tally.keys, tally.of key

@[simp] theorem of_empty (key : Key) : of (∅ : Tally Key Amount) key = 0 := by
  simp [of]

@[simp] theorem of_add (tally : Tally Key Amount) (line : Key × Amount)
    (key : Key) : (tally.add line).of key = tally.of key + amountFor key line := by
  by_cases same : line.1 = key
  · subst same
    simp [of, add, amountFor]
  · have other : key ≠ line.1 := fun equal => same equal.symm
    simp [of, add, amountFor, same, Finmap.lookup_insert_of_ne _ other]

@[simp] theorem addAll_nil (tally : Tally Key Amount) : tally.addAll [] = tally := rfl

@[simp] theorem addAll_cons (tally : Tally Key Amount) (line : Key × Amount)
    (lines : List (Key × Amount)) :
    tally.addAll (line :: lines) = (tally.add line).addAll lines := rfl

theorem addAll_append (tally : Tally Key Amount) (first second : List (Key × Amount)) :
    tally.addAll (first ++ second) = (tally.addAll first).addAll second :=
  List.foldl_append

@[simp] theorem of_addAll (tally : Tally Key Amount) (lines : List (Key × Amount))
    (key : Key) :
    (tally.addAll lines).of key = tally.of key + (lines.map (amountFor key)).sum := by
  induction lines generalizing tally with
  | nil => simp
  | cons line lines induction => simp [induction, add_assoc]

theorem of_insert_self (tally : Tally Key Amount) (key : Key) (amount : Amount) :
    of (tally.insert key amount) key = amount := by
  simp [of]

theorem of_insert_other (tally : Tally Key Amount) {key other : Key} (amount : Amount)
    (different : other ≠ key) : of (tally.insert key amount) other = tally.of other := by
  simp [of, Finmap.lookup_insert_of_ne _ different]

theorem of_eq_zero_of_notMem {tally : Tally Key Amount} {key : Key}
    (absent : key ∉ tally) : tally.of key = 0 := by
  simp [of, Finmap.lookup_eq_none.mpr absent]

theorem keys_add (tally : Tally Key Amount) (line : Key × Amount) :
    (tally.add line).keys = insert line.1 tally.keys := by
  ext key
  simp [add, Finmap.mem_keys, Finmap.mem_insert]

@[simp] theorem total_add (tally : Tally Key Amount) (line : Key × Amount) :
    (tally.add line).total = tally.total + line.2 := by
  rw [total, keys_add]
  apply sum_changed_at
  · intro other different
    rw [of_add, amountFor_other _ different.symm, add_zero]
  · rw [of_add, amountFor_self]
  · intro absent
    exact of_eq_zero_of_notMem fun member => absent (Finmap.mem_keys.mpr member)

@[simp] theorem total_addAll (tally : Tally Key Amount) (lines : List (Key × Amount)) :
    (tally.addAll lines).total = tally.total + (lines.map Prod.snd).sum := by
  induction lines generalizing tally with
  | nil => simp
  | cons line lines induction => simp [induction, add_assoc]

theorem total_congr {first second : Tally Key Amount}
    (same : ∀ key, first.of key = second.of key) : first.total = second.total := by
  have widened : ∀ tally : Tally Key Amount, ∀ keys, tally.keys ⊆ keys →
      tally.total = ∑ key ∈ keys, tally.of key := by
    intro tally keys subset
    apply Finset.sum_subset subset
    intro key _ absent
    exact of_eq_zero_of_notMem fun member => absent (Finmap.mem_keys.mpr member)
  rw [widened first _ Finset.subset_union_left, widened second _ Finset.subset_union_right]
  exact Finset.sum_congr rfl fun key _ => same key

theorem lookup_eq (tally : Tally Key Amount) (key : Key) :
    tally.lookup key = if key ∈ tally then some (tally.of key) else none := by
  split
  · rename_i held
    rcases Finmap.mem_iff.mp held with ⟨amount, found⟩
    rw [of, found, Option.getD_some]
  · rename_i absent
    exact Finmap.lookup_eq_none.mpr absent

theorem mem_addAll (tally : Tally Key Amount) (lines : List (Key × Amount)) (key : Key) :
    key ∈ tally.addAll lines ↔ key ∈ tally ∨ key ∈ lines.map Prod.fst := by
  induction lines generalizing tally with
  | nil => simp
  | cons line lines induction =>
      rw [addAll_cons, induction, add, Finmap.mem_insert, List.map_cons, List.mem_cons]
      tauto

/-- The keys held, and what each counts for, do not depend on the order of the
lines. -/
theorem addAll_perm (tally : Tally Key Amount) {first second : List (Key × Amount)}
    (same : first.Perm second) : tally.addAll first = tally.addAll second := by
  apply Finmap.ext_lookup
  intro key
  have held : key ∈ first.map Prod.fst ↔ key ∈ second.map Prod.fst :=
    (same.map Prod.fst).mem_iff
  rw [lookup_eq, lookup_eq, of_addAll, of_addAll, (same.map (amountFor key)).sum_eq]
  simp only [mem_addAll, held]

end Tally

end AmqpApps
