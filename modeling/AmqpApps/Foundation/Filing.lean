import AmqpApps.Foundation.Tally
import Mathlib.Algebra.BigOperators.Group.Finset.Basic

/-! # Dictionaries of lists

Items filed one after another, each under a key, the list of a key being
created when its first item comes. What is filed under a key is what has come
for it, in the order in which it came.
-/

namespace AmqpApps

@[reducible] def Filing (Key : Type u) (Item : Type v) :=
  Finmap fun _ : Key => List Item

namespace Filing

variable {Key : Type u} {Item : Type v} [DecidableEq Key]

def of (filing : Filing Key Item) (key : Key) : List Item :=
  (filing.lookup key).getD []

/-- `setdefault(key, []).append(item)`. -/
def file (filing : Filing Key Item) (key : Key) (item : Item) : Filing Key Item :=
  filing.insert key (filing.of key ++ [item])

def fileAll (filing : Filing Key Item) (items : List (Key × Item)) : Filing Key Item :=
  items.foldl (fun filing item => filing.file item.1 item.2) filing

def size (filing : Filing Key Item) : Nat :=
  ∑ key ∈ filing.keys, (filing.of key).length

@[simp] theorem of_empty (key : Key) : of (∅ : Filing Key Item) key = [] := by
  simp [of]

theorem of_file (filing : Filing Key Item) (key other : Key) (item : Item) :
    (filing.file key item).of other =
      filing.of other ++ if key = other then [item] else [] := by
  by_cases same : key = other
  · subst same
    simp [of, file]
  · have different : other ≠ key := fun equal => same equal.symm
    simp [of, file, same, Finmap.lookup_insert_of_ne _ different]

@[simp] theorem fileAll_nil (filing : Filing Key Item) : filing.fileAll [] = filing := rfl

theorem fileAll_concat (filing : Filing Key Item) (items : List (Key × Item))
    (item : Key × Item) :
    filing.fileAll (items ++ [item]) = (filing.fileAll items).file item.1 item.2 := by
  simp [fileAll]

theorem of_fileAll (items : List (Key × Item)) (key : Key) :
    (fileAll ∅ items).of key =
      (items.filter fun item => item.1 = key).map Prod.snd := by
  induction items using List.reverseRecOn with
  | nil => simp
  | append_singleton items item induction =>
      rw [fileAll_concat, of_file, induction, List.filter_append, List.map_append]
      by_cases same : item.1 = key <;> simp [same]

theorem keys_file (filing : Filing Key Item) (key : Key) (item : Item) :
    (filing.file key item).keys = insert key filing.keys := by
  ext other
  simp [file, Finmap.mem_keys, Finmap.mem_insert]

theorem size_file (filing : Filing Key Item) (key : Key) (item : Item) :
    (filing.file key item).size = filing.size + 1 := by
  rw [size, keys_file]
  apply sum_changed_at
  · intro other different
    rw [of_file, if_neg fun same => different same.symm, List.append_nil]
  · rw [of_file, if_pos rfl, List.length_append, List.length_singleton]
  · intro absent
    have unknown : filing.lookup key = none :=
      Finmap.lookup_eq_none.mpr fun member => absent (Finmap.mem_keys.mpr member)
    simp [of, unknown]

theorem size_fileAll (items : List (Key × Item)) :
    (fileAll ∅ items).size = items.length := by
  induction items using List.reverseRecOn with
  | nil => rfl
  | append_singleton items item induction =>
      rw [fileAll_concat, size_file, induction, List.length_append, List.length_singleton]

end Filing

end AmqpApps
