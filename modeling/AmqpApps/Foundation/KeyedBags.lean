import Mathlib.Data.Multiset.Bind
import Mathlib.Data.Multiset.Filter

/-! # Counting in bags, and bags whose members carry a key

Messages and calls in flight are bags. What is proved of them is how many of a
kind there are, and what holds of each when one of them goes on; or, where each
contributes something under a key of its own, that a key picks out one contribution.
-/

namespace AmqpApps

variable {Member : Type u} {Part : Type v} {Key : Type w}

def howMany (kind : Member → Bool) (bag : Multiset Member) : Nat :=
  bag.countP fun member => kind member = true

@[simp] theorem howMany_zero (kind : Member → Bool) : howMany kind 0 = 0 := rfl

theorem howMany_cons (kind : Member → Bool) (member : Member) (bag : Multiset Member) :
    howMany kind (member ::ₘ bag) = howMany kind bag + (kind member).toNat := by
  rw [howMany, Multiset.countP_cons]
  cases kind member <;> rfl

theorem howMany_add (kind : Member → Bool) (bag more : Multiset Member) :
    howMany kind (bag + more) = howMany kind bag + howMany kind more :=
  Multiset.countP_add _ _ _

theorem howMany_erase [DecidableEq Member] (kind : Member → Bool) {member : Member}
    {bag : Multiset Member} (present : member ∈ bag) :
    howMany kind bag = howMany kind (bag.erase member) + (kind member).toNat := by
  rw [← howMany_cons, Multiset.cons_erase present]

theorem forall_cons_erase [DecidableEq Member] {Holds : Member → Prop}
    {bag : Multiset Member} {member moved : Member} (mine : Holds moved)
    (all : ∀ other ∈ bag, Holds other) : ∀ other ∈ moved ::ₘ bag.erase member, Holds other := by
  intro other member
  rcases Multiset.mem_cons.mp member with same | another
  · rw [same]
    exact mine
  · exact all other (Multiset.mem_of_mem_erase another)

theorem howMany_coe (kind : Member → Bool) (members : List Member) :
    howMany kind (Multiset.ofList members) = members.countP kind := by
  simp [howMany]

theorem countP_concat (kind : Member → Bool) (members : List Member) (member : Member) :
    (members ++ [member]).countP kind = members.countP kind + (kind member).toNat := by
  rw [List.countP_append, List.countP_singleton]
  cases kind member <;> rfl

theorem countP_only (kind : Member → Bool) (member : Member) :
    [member].countP kind = (kind member).toNat := by
  simpa using countP_concat kind [] member

theorem sum_erase [DecidableEq Member] {bag : Multiset Member} {member : Member}
    (share : Member → Nat) (present : member ∈ bag) :
    ((bag.erase member).map share).sum + share member = (bag.map share).sum := by
  conv_rhs => rw [← Multiset.cons_erase present, Multiset.map_cons, Multiset.sum_cons]
  exact Nat.add_comm _ _

theorem bind_erase [DecidableEq Member] (part : Member → Multiset Part) {member : Member}
    {bag : Multiset Member} (present : member ∈ bag) :
    bag.bind part = part member + (bag.erase member).bind part := by
  rw [← Multiset.cons_bind, Multiset.cons_erase present]

variable [DecidableEq Key]

theorem filter_bind_other {bag : Multiset Member} {part : Member → Multiset Part}
    {keyOf : Part → Key} {key : Member → Key} {chosen : Key}
    (labelled : ∀ member, ∀ piece ∈ part member, keyOf piece = key member)
    (absent : chosen ∉ bag.map key) :
    (bag.bind part).filter (fun piece => keyOf piece = chosen) = 0 := by
  rw [Multiset.filter_eq_nil]
  intro piece present same
  rcases Multiset.mem_bind.mp present with ⟨member, held, contributed⟩
  have mine := labelled member piece contributed
  exact absent (Multiset.mem_map.mpr ⟨member, held, by rw [← mine, same]⟩)

theorem filter_bind_key {bag : Multiset Member} {part : Member → Multiset Part}
    {keyOf : Part → Key} {key : Member → Key} {chosen : Member}
    (labelled : ∀ member, ∀ piece ∈ part member, keyOf piece = key member)
    (distinct : (bag.map key).Nodup) (held : chosen ∈ bag) :
    (bag.bind part).filter (fun piece => keyOf piece = key chosen) = part chosen := by
  rcases Multiset.exists_cons_of_mem held with ⟨others, split⟩
  rw [split, Multiset.map_cons, Multiset.nodup_cons] at distinct
  have mine : (part chosen).filter (fun piece => keyOf piece = key chosen) = part chosen :=
    Multiset.filter_eq_self.mpr (labelled chosen)
  rw [split, Multiset.cons_bind, Multiset.filter_add, mine,
    filter_bind_other labelled distinct.1, add_zero]

theorem map_eq_pair [DecidableEq Member] {bag : Multiset Member} {image : Member → Part}
    {first second : Part} (equal : bag.map image = {first, second}) :
    ∃ one other, bag = {one, other} ∧ image one = first ∧ image other = second := by
  rcases (Multiset.map_eq_cons image bag {second} first).mpr equal with ⟨one, held, same, rest⟩
  rcases Multiset.map_eq_singleton.mp rest with ⟨other, left, equalToo⟩
  refine ⟨one, other, ?_, same, equalToo⟩
  rw [← Multiset.cons_erase held, left]
  rfl

omit [DecidableEq Key] in
/-- Members of a list with distinct keys are in its order when their keys are. -/
theorem part_of_keys {key : Member → Key}
    {members all : List Member} (distinct : (all.map key).Nodup)
    (among : ∀ member ∈ members, member ∈ all) (part : members.map key <+: all.map key) :
    members <+: all := by
  induction members generalizing all with
  | nil => exact List.nil_prefix
  | cons member members induction =>
      cases all with
      | nil => exact absurd (among member List.mem_cons_self) List.not_mem_nil
      | cons first rest =>
          rw [List.map_cons, List.map_cons, List.cons_prefix_cons] at part
          have same : member = first :=
            List.inj_on_of_nodup_map distinct (among member List.mem_cons_self)
              List.mem_cons_self part.1
          rw [List.map_cons, List.nodup_cons] at distinct
          rw [same, List.cons_prefix_cons]
          refine ⟨rfl, induction distinct.2 ?_ part.2⟩
          intro other listed
          rcases List.mem_cons.mp (among other (List.mem_cons_of_mem _ listed)) with again | later
          · rw [again] at listed
            exact absurd (part.2.subset (List.mem_map.mpr ⟨first, listed, rfl⟩)) distinct.1
          · exact later

end AmqpApps
