import AmqpApps.CamelCase
import AmqpApps.Fulfilment.Contracts
import AmqpApps.Ledger.Contracts
import AmqpApps.PolicyAdministration.Contracts

/-! # The three copies of the wire form

Each application has its own `contracts.py`. Two of the three `_camel` are the
same text; the ledger's drops the underscores at the end of a name first.
-/

namespace AmqpApps

inductive ContractsModule
  | orderFulfilment
  | policyAdministration
  | ledger
deriving DecidableEq

namespace ContractsModule

def camel : ContractsModule → String → String
  | orderFulfilment => AmqpApps.camel
  | policyAdministration => AmqpApps.camel
  | ledger => camelStripped

/-- A field's name without what the module's `_camel` drops from it. -/
def bare : ContractsModule → String → String
  | ledger, name => String.ofList (name.toList.rdropWhile (· == '_'))
  | _, name => name

def records : ContractsModule → List (List String)
  | orderFulfilment =>
      [Fulfilment.OrderPlaced.fieldNames, Fulfilment.PaymentCaptured.fieldNames,
        Fulfilment.PaymentDeclined.fieldNames, Fulfilment.StockReserved.fieldNames,
        Fulfilment.StockUnavailable.fieldNames, Fulfilment.OrderShipped.fieldNames]
  | policyAdministration =>
      [PolicyAdministration.ApplicationSubmitted.fieldNames,
        PolicyAdministration.ApplicationAccepted.fieldNames,
        PolicyAdministration.ApplicationDeclined.fieldNames,
        PolicyAdministration.PolicyIssued.fieldNames,
        PolicyAdministration.DocumentStored.fieldNames,
        PolicyAdministration.PremiumCharged.fieldNames,
        PolicyAdministration.ClaimSettled.fieldNames,
        PolicyAdministration.ClaimRejected.fieldNames,
        PolicyAdministration.PolicyQuery.fieldNames,
        PolicyAdministration.PolicyStatus.fieldNames]
  | ledger =>
      [Ledger.EntryPosted.fieldNames, Ledger.TransferRejected.fieldNames,
        Ledger.Transfer.fieldNames]

/-- A record whose fields, but for the underscores the module's `_camel` drops,
have distinct names in snake case. -/
structure WellNamed (contracts : ContractsModule) (names : List String) : Prop where
  snake : ∀ name ∈ names, SnakeCase (contracts.bare name)
  distinct : (names.map contracts.bare).Nodup

private theorem camel_eq (contracts : ContractsModule) (name : String) :
    contracts.camel name = AmqpApps.camel (contracts.bare name) := by
  cases contracts with
  | ledger => rw [camel, bare, camelStripped, AmqpApps.camel, String.toList_ofList]
  | _ => rfl

private theorem bare_eq (contracts : ContractsModule) {name : String}
    (ends : name.toList.getLast? ≠ some '_') : contracts.bare name = name := by
  cases contracts with
  | ledger =>
      apply String.toList_inj.mp
      rw [bare, String.toList_ofList]
      rcases List.eq_nil_or_concat name.toList with empty | ⟨letters, last, named⟩
      · rw [empty]
        rfl
      · rw [named, List.concat_eq_append] at ends ⊢
        apply List.rdropWhile_concat_neg
        intro underscore
        exact ends (by simpa using underscore)
  | _ => rfl

private theorem records_wellNamed (contracts : ContractsModule) :
    ∀ names ∈ contracts.records, contracts.WellNamed names := by
  have named : ∀ names ∈ contracts.records,
      (∀ name ∈ names, SnakeCase (contracts.bare name)) ∧ (names.map contracts.bare).Nodup := by
    cases contracts <;> decide
  intro names member
  exact ⟨(named names member).1, (named names member).2⟩

private theorem WellNamed.keys {contracts : ContractsModule} {names : List String}
    (wellNamed : contracts.WellNamed names) : (names.map contracts.camel).Nodup := by
  have renamed : names.map contracts.camel = (names.map contracts.bare).map AmqpApps.camel := by
    rw [List.map_map]
    exact List.map_congr_left fun name _ => contracts.camel_eq name
  rw [renamed]
  apply List.Nodup.map_on _ wellNamed.distinct
  intro first memberFirst second memberSecond same
  rcases List.mem_map.mp memberFirst with ⟨name, memberName, rfl⟩
  rcases List.mem_map.mp memberSecond with ⟨other, memberOther, rfl⟩
  exact camel_injective (wellNamed.snake name memberName) (wellNamed.snake other memberOther) same

end ContractsModule

/-- The wire form of a well-named record, and so of every class of the three
modules: no two names share a key, a payload has one key for each field,
reading gives back what was written, looks at the record's keys and at nothing
else, fails exactly for want of one of them, and writing what was read gives
back the payload under these keys. -/
theorem wire_form_loses_nothing (contracts : ContractsModule) :
    (∀ names ∈ contracts.records, contracts.WellNamed names) ∧
    (∀ first second, SnakeCase (contracts.bare first) → SnakeCase (contracts.bare second) →
      contracts.camel first = contracts.camel second →
        contracts.bare first = contracts.bare second) ∧
    (∀ (other : ContractsModule) (name : String), name.toList.getLast? ≠ some '_' →
      contracts.camel name = other.camel name) ∧
    ∀ names, contracts.WellNamed names →
      (∀ fields : Fields, fields.map Prod.fst = names →
        (toWire contracts.camel fields).keys.card = names.length ∧
        fromWire contracts.camel names (toWire contracts.camel fields) = .ok fields) ∧
      (∀ payload more : Payload,
        (∀ name ∈ names, payload.lookup (contracts.camel name) =
          more.lookup (contracts.camel name)) →
        fromWire contracts.camel names payload = fromWire contracts.camel names more) ∧
      (∀ payload : Payload,
        (∃ missing, fromWire contracts.camel names payload = .error (.keyError missing)) ↔
          ∃ name ∈ names, contracts.camel name ∉ payload) ∧
      (∀ (payload : Payload) (fields : Fields),
        fromWire contracts.camel names payload = .ok fields → ∀ key,
          (toWire contracts.camel fields).lookup key =
            if key ∈ names.map contracts.camel then payload.lookup key else none) := by
  refine ⟨contracts.records_wellNamed, ?_, ?_, ?_⟩
  · intro first second snakeFirst snakeSecond same
    rw [contracts.camel_eq, contracts.camel_eq] at same
    exact camel_injective snakeFirst snakeSecond same
  · intro other name ends
    rw [contracts.camel_eq, other.camel_eq, contracts.bare_eq ends, other.bare_eq ends]
  · intro names wellNamed
    refine ⟨?_, fun _ _ => fromWire_congr, fun _ => fromWire_keyError_iff,
      fun _ _ read key => lookup_toWire_fromWire wellNamed.keys read key⟩
    intro fields namesOf
    have keys : fields.map (fun field => contracts.camel field.1) =
        names.map contracts.camel := by
      rw [← namesOf, List.map_map]
      rfl
    constructor
    · rw [keys_toWire, keys, List.toFinset_card_of_nodup wellNamed.keys, List.length_map]
    · rw [← namesOf]
      apply fromWire_toWire
      rw [namesOf]
      exact wellNamed.keys

def overdrawn : Ledger.TransferRejected := ⟨"T-1", "alice", "bob", 70, "insufficient funds"⟩

theorem refusal_loses_nothing :
    (toWire camelStripped overdrawn.asdict).keys.card = 5 ∧
      fromWire camelStripped Ledger.TransferRejected.fieldNames
        (toWire camelStripped overdrawn.asdict) = .ok overdrawn.asdict := by
  rcases wire_form_loses_nothing .ledger with ⟨defined, -, -, wire⟩
  rcases wire Ledger.TransferRejected.fieldNames (defined _ (by decide)) with ⟨trip, -⟩
  exact trip overdrawn.asdict rfl

end AmqpApps
