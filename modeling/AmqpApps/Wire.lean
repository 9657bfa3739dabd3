import Mathlib.Data.Finmap
import Mathlib.Data.Rat.Defs
import Mathlib.Data.List.DropRight

/-! # The wire form the three applications share

Each application's `contracts.py` keeps a copy of the same two functions: a
dataclass leaves as a JSON object under camelCase keys and is read back from
one. Nothing checks the types of the values on the way in.
-/

namespace AmqpApps

/-- What a JSON document decodes to. A `float` is as it is written there, and read as the nearest
double. -/
inductive Value
  | none
  | bool (value : Bool)
  | int (value : Int)
  | float (value : ℚ)
  | str (value : String)
  | list (items : List Value)
  | dict (items : List (String × Value))

/-- A decoded JSON object, as a Python `dict`: equal whatever the order of its keys. -/
@[reducible] def Payload := Finmap fun _ : String => Value

inductive PyError
  | keyError (key : String)
  | typeError
  | overflowError
deriving DecidableEq

/-! ## Key names -/

/-- `str.title` on ASCII text: a letter that follows a letter is lower case,
one that does not is upper case. -/
def titleFrom (insideWord : Bool) : List Char → List Char
  | [] => []
  | letter :: letters =>
      (if insideWord then letter.toLower else letter.toUpper) ::
        titleFrom letter.isAlpha letters

def title (part : List Char) : List Char := titleFrom false part

/-- `_camel` of apps/01 and apps/02, letter by letter. -/
def camelLetters (name : List Char) : List Char :=
  match name.splitOn '_' with
  | [] => []
  | head :: rest => head ++ (rest.map title).flatten

def camel (name : String) : String := String.ofList (camelLetters name.toList)

/-- `_camel` of apps/03, which first drops the underscores that keep a field
from being a Python keyword. -/
def camelStripped (name : String) : String :=
  String.ofList (camelLetters (name.toList.rdropWhile (· == '_')))

example : camel "age_of_applicant" = "ageOfApplicant" := by decide

example : camelStripped "from_" = "from" := by decide

/-! ## Encoding and decoding -/

@[reducible] def Fields := List (String × Value)

/-- `to_wire`: later fields overwrite earlier ones of the same key, as in a
dict comprehension. -/
def toWire (key : String → String) (fields : Fields) : Payload :=
  fields.foldl (fun payload field => payload.insert (key field.1) field.2) ∅

/-- `from_wire`: one value for each field name, or the first key that is missing. -/
def fromWire (key : String → String) (names : List String) (payload : Payload) :
    Except PyError Fields :=
  names.mapM fun name =>
    match payload.lookup (key name) with
    | some value => .ok (name, value)
    | .none => .error (.keyError (key name))

private theorem toWire_concat (key : String → String) (fields : Fields) (field : String × Value) :
    toWire key (fields ++ [field]) = (toWire key fields).insert (key field.1) field.2 := by
  simp [toWire]

private theorem lookup_toWire (key : String → String) (fields : Fields)
    (distinct : (fields.map fun field => key field.1).Nodup)
    (field : String × Value) (member : field ∈ fields) :
    (toWire key fields).lookup (key field.1) = some field.2 := by
  induction fields using List.reverseRecOn with
  | nil => cases member
  | append_singleton fields last induction =>
      rw [toWire_concat]
      rw [List.map_append, List.nodup_append] at distinct
      rcases List.mem_append.mp member with earlier | final
      · have different : key field.1 ≠ key last.1 :=
          distinct.2.2 _ (List.mem_map_of_mem earlier) _ (by simp)
        rw [Finmap.lookup_insert_of_ne _ different]
        exact induction distinct.1 earlier
      · cases List.mem_singleton.mp final
        exact Finmap.lookup_insert _

theorem keys_toWire (key : String → String) (fields : Fields) :
    (toWire key fields).keys = (fields.map fun field => key field.1).toFinset := by
  induction fields using List.reverseRecOn with
  | nil => rfl
  | append_singleton fields last induction =>
      rw [toWire_concat, List.map_append, List.toFinset_append, ← induction]
      ext other
      simp [Finmap.mem_keys, Finmap.mem_insert]

/-- Nothing is lost on the wire when the keys of the fields are distinct. -/
theorem fromWire_toWire (key : String → String) (fields : Fields)
    (distinct : ((fields.map Prod.fst).map key).Nodup) :
    fromWire key (fields.map Prod.fst) (toWire key fields) = .ok fields := by
  rw [List.map_map] at distinct
  have found := lookup_toWire key fields distinct
  suffices ∀ part : Fields, (∀ field ∈ part, field ∈ fields) →
      fromWire key (part.map Prod.fst) (toWire key fields) = .ok part from
    this fields fun _ member => member
  intro part within
  induction part with
  | nil => rfl
  | cons field part induction =>
      have rest := induction fun other member => within other (List.mem_cons_of_mem _ member)
      simp only [fromWire] at rest ⊢
      simp only [List.map_cons, List.mapM_cons, rest,
        found field (within field List.mem_cons_self)]
      rfl

/-! ## What `from_wire` reads -/

section FromWire

variable {key : String → String} {names : List String} {payload : Payload} {fields : Fields}

private theorem fromWire_cons (key : String → String) (name : String) (names : List String)
    (payload : Payload) :
    fromWire key (name :: names) payload =
      match payload.lookup (key name) with
      | some value => (fromWire key names payload).map ((name, value) :: ·)
      | .none => .error (.keyError (key name)) := by
  rw [fromWire, List.mapM_cons]
  cases payload.lookup (key name) with
  | none => rfl
  | some value =>
      change (fromWire key names payload).bind _ = (fromWire key names payload).map _
      cases fromWire key names payload <;> rfl

theorem fromWire_congr {other : Payload}
    (same : ∀ name ∈ names, payload.lookup (key name) = other.lookup (key name)) :
    fromWire key names payload = fromWire key names other := by
  induction names with
  | nil => rfl
  | cons name names induction =>
      rw [fromWire_cons, fromWire_cons, same name List.mem_cons_self,
        induction fun later member => same later (List.mem_cons_of_mem _ member)]

private theorem fromWire_ok (read : fromWire key names payload = .ok fields) :
    fields.map Prod.fst = names ∧
      ∀ field ∈ fields, payload.lookup (key field.1) = some field.2 := by
  induction names generalizing fields with
  | nil =>
      cases read
      exact ⟨rfl, nofun⟩
  | cons name names induction =>
      rw [fromWire_cons] at read
      cases found : payload.lookup (key name) with
      | none => simp [found] at read
      | some value =>
          cases rest : fromWire key names payload with
          | error error => simp [found, rest, Except.map] at read
          | ok tail =>
              rcases induction rest with ⟨namesOf, values⟩
              simp only [found, rest, Except.map, Except.ok.injEq] at read
              rw [← read]
              refine ⟨by simp [namesOf], ?_⟩
              intro field member
              rcases List.mem_cons.mp member with first | later
              · rw [first]
                exact found
              · exact values field later

private theorem fromWire_error {error : PyError}
    (failed : fromWire key names payload = .error error) :
    ∃ name ∈ names, key name ∉ payload ∧ error = .keyError (key name) := by
  induction names with
  | nil => cases failed
  | cons name names induction =>
      rw [fromWire_cons] at failed
      cases found : payload.lookup (key name) with
      | none =>
          simp only [found, Except.error.injEq] at failed
          exact ⟨name, List.mem_cons_self, Finmap.lookup_eq_none.mp found, failed.symm⟩
      | some value =>
          cases rest : fromWire key names payload with
          | ok tail => simp [found, rest, Except.map] at failed
          | error first =>
              simp only [found, rest, Except.map, Except.error.injEq] at failed
              rcases induction (by rw [rest, failed]) with ⟨missing, member, absent, named⟩
              exact ⟨missing, List.mem_cons_of_mem _ member, absent, named⟩

theorem fromWire_keyError_iff :
    (∃ missing, fromWire key names payload = .error (.keyError missing)) ↔
      ∃ name ∈ names, key name ∉ payload := by
  constructor
  · rintro ⟨missing, failed⟩
    rcases fromWire_error failed with ⟨name, member, absent, -⟩
    exact ⟨name, member, absent⟩
  · rintro ⟨name, member, absent⟩
    cases read : fromWire key names payload with
    | ok fields =>
        rcases fromWire_ok read with ⟨namesOf, values⟩
        rw [← namesOf] at member
        rcases List.mem_map.mp member with ⟨field, present, equal⟩
        have found := values field present
        rw [equal, Finmap.lookup_eq_none.mpr absent] at found
        cases found
    | error error =>
        rcases fromWire_error read with ⟨first, -, -, named⟩
        exact ⟨key first, by rw [named]⟩

theorem lookup_toWire_fromWire (distinct : (names.map key).Nodup)
    (read : fromWire key names payload = .ok fields) (name : String) :
    (toWire key fields).lookup name =
      if name ∈ names.map key then payload.lookup name else none := by
  rcases fromWire_ok read with ⟨namesOf, values⟩
  have keys : fields.map (fun field => key field.1) = names.map key := by
    rw [← namesOf, List.map_map]
    rfl
  split
  · rename_i known
    rw [← keys] at known
    rcases List.mem_map.mp known with ⟨field, member, equal⟩
    rw [← equal, values field member]
    exact lookup_toWire key fields (by rw [keys]; exact distinct) field member
  · rename_i unknown
    apply Finmap.lookup_eq_none.mpr
    intro held
    rw [← Finmap.mem_keys, keys_toWire, keys, List.mem_toFinset] at held
    exact unknown held

end FromWire

end AmqpApps
