import AmqpApps.Fulfilment.Contracts
import Mathlib.Data.List.Infix

/-! # The three stories of an order -/

namespace AmqpApps.Fulfilment

def stories : List (List String) :=
  [["OrderPlaced", "PaymentCaptured", "StockReserved", "OrderShipped"],
    ["OrderPlaced", "PaymentDeclined"],
    ["OrderPlaced", "PaymentCaptured", "StockUnavailable"]]

/-- The types without the `OrderPlaced` that come after the first. -/
def withoutRepeats : List String → List String
  | [] => []
  | first :: later => first :: later.filter (· ≠ "OrderPlaced")

/-- The types begin with the order, and tell a part of a story. -/
def Tells (types : List String) : Prop :=
  (types ≠ [] → types.head? = some "OrderPlaced") ∧
    ∃ story ∈ stories, withoutRepeats types <+: story

theorem Tells.nil : Tells [] :=
  ⟨fun nonempty => absurd rfl nonempty, stories.head!, by decide, List.nil_prefix⟩

private theorem withoutRepeats_concat {types : List String} (nonempty : types ≠ [])
    (type : String) :
    withoutRepeats (types ++ [type]) =
      withoutRepeats types ++ if type = "OrderPlaced" then [] else [type] := by
  cases types with
  | nil => exact absurd rfl nonempty
  | cons first later =>
      by_cases again : type = "OrderPlaced"
      · simp [withoutRepeats, again]
      · simp [withoutRepeats, again]

theorem mem_withoutRepeats {types : List String} {type : String} (other : type ≠ "OrderPlaced") :
    type ∈ withoutRepeats types ↔ type ∈ types := by
  cases types with
  | nil => exact Iff.rfl
  | cons first later => simp [withoutRepeats, other]

private theorem withoutRepeats_part {types more : List String} (part : types <+: more) :
    withoutRepeats types <+: withoutRepeats more := by
  rcases part with ⟨rest, joined⟩
  rw [← joined]
  cases types with
  | nil => exact List.nil_prefix
  | cons first later =>
      rw [List.cons_append, withoutRepeats, withoutRepeats, List.filter_append]
      exact ⟨_, rfl⟩

theorem Tells.of_part {types more : List String} (tells : Tells more) (part : types <+: more) :
    Tells types := by
  rcases tells with ⟨begins, story, member, told⟩
  refine ⟨?_, story, member, (withoutRepeats_part part).trans told⟩
  intro nonempty
  rcases part with ⟨rest, rfl⟩
  cases types with
  | nil => exact absurd rfl nonempty
  | cons first later => exact begins (by simp)

/-- How far a story can have been told. -/
theorem Tells.cases {types : List String} (tells : Tells types) (nonempty : types ≠ []) :
    withoutRepeats types = ["OrderPlaced"] ∨
    withoutRepeats types = ["OrderPlaced", "PaymentCaptured"] ∨
    withoutRepeats types = ["OrderPlaced", "PaymentCaptured", "StockReserved"] ∨
    withoutRepeats types = ["OrderPlaced", "PaymentCaptured", "StockReserved", "OrderShipped"] ∨
    withoutRepeats types = ["OrderPlaced", "PaymentDeclined"] ∨
    withoutRepeats types = ["OrderPlaced", "PaymentCaptured", "StockUnavailable"] := by
  rcases tells with ⟨-, story, member, told⟩
  have some : withoutRepeats types ≠ [] := by
    cases types with
    | nil => exact absurd rfl nonempty
    | cons first later => exact List.cons_ne_nil _ _
  have listed := (List.mem_inits _ _).mpr told
  simp only [stories, List.mem_cons, List.not_mem_nil, or_false] at member
  rcases member with rfl | rfl | rfl <;>
    simp only [List.inits, List.map_cons, List.map_nil, List.mem_cons, List.not_mem_nil,
      or_false, some, false_or] at listed <;> tauto

theorem Tells.placed {types : List String} (tells : Tells types) :
    Tells (types ++ ["OrderPlaced"]) := by
  cases types with
  | nil => exact ⟨fun _ => rfl, _, List.mem_cons_self, by decide⟩
  | cons first later =>
      rcases tells with ⟨begins, story, member, told⟩
      refine ⟨fun _ => begins (by simp), story, member, ?_⟩
      rw [withoutRepeats_concat (by simp), if_pos rfl, List.append_nil]
      exact told

private theorem Tells.concat {types told : List String} {type : String} (tells : Tells types)
    (before : withoutRepeats types = told) (begun : told ≠ [])
    (next : ∃ story ∈ stories, told ++ [type] <+: story) (other : type ≠ "OrderPlaced") :
    Tells (types ++ [type]) := by
  have nonempty : types ≠ [] := by
    rintro rfl
    exact begun before.symm
  rcases next with ⟨story, member, part⟩
  constructor
  · intro _
    rw [List.head?_append, tells.1 nonempty]
    rfl
  · refine ⟨story, member, ?_⟩
    rw [withoutRepeats_concat nonempty, if_neg other, before]
    exact part

theorem Tells.charged {types : List String} (tells : Tells types) (nonempty : types ≠ [])
    (unpaid : "PaymentCaptured" ∉ types) (undeclined : "PaymentDeclined" ∉ types) :
    Tells (types ++ ["PaymentCaptured"]) ∧ Tells (types ++ ["PaymentDeclined"]) := by
  rw [← mem_withoutRepeats (by decide)] at unpaid undeclined
  have told : withoutRepeats types = ["OrderPlaced"] := by
    rcases tells.cases nonempty with told | told | told | told | told | told
    · exact told
    all_goals simp [told] at unpaid undeclined
  exact ⟨tells.concat told (by decide) (by decide) (by decide),
    tells.concat told (by decide) (by decide) (by decide)⟩

theorem Tells.decided {types : List String} (tells : Tells types)
    (paid : "PaymentCaptured" ∈ types) (unreserved : "StockReserved" ∉ types)
    (available : "StockUnavailable" ∉ types) :
    Tells (types ++ ["StockReserved"]) ∧ Tells (types ++ ["StockUnavailable"]) := by
  have nonempty := List.ne_nil_of_mem paid
  rw [← mem_withoutRepeats (by decide)] at paid unreserved available
  have told : withoutRepeats types = ["OrderPlaced", "PaymentCaptured"] := by
    rcases tells.cases nonempty with told | told | told | told | told | told
    case inr.inl => exact told
    all_goals simp [told] at paid unreserved available
  exact ⟨tells.concat told (by decide) (by decide) (by decide),
    tells.concat told (by decide) (by decide) (by decide)⟩

theorem Tells.shipped {types : List String} (tells : Tells types)
    (reserved : "StockReserved" ∈ types) (unshipped : "OrderShipped" ∉ types) :
    Tells (types ++ ["OrderShipped"]) := by
  have nonempty := List.ne_nil_of_mem reserved
  rw [← mem_withoutRepeats (by decide)] at reserved unshipped
  have told : withoutRepeats types = ["OrderPlaced", "PaymentCaptured", "StockReserved"] := by
    rcases tells.cases nonempty with told | told | told | told | told | told
    case inr.inr.inl => exact told
    all_goals simp [told] at reserved unshipped
  exact tells.concat told (by decide) (by decide) (by decide)

end AmqpApps.Fulfilment
