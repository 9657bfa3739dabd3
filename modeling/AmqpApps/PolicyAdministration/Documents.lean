import AmqpApps.Foundation.TransitionSystem
import AmqpApps.Outbox
import AmqpApps.PolicyAdministration.Contracts
import Mathlib.Data.Finmap
import Mathlib.Data.Multiset.Basic

/-! # Documents: claim checks

`store` writes its dictionary and then awaits its publish, which may raise with the event
out or not. Of a key the caller chooses all but the last eight characters, slashes
included.
-/

namespace AmqpApps.PolicyAdministration

structure DocumentModule where
  contents : Finmap fun _ : String => List UInt8

namespace DocumentModule

def new : DocumentModule := ⟨∅⟩

def key (policyId kind suffix : String) : String := s!"doc/{policyId}/{kind}/{suffix}"

/-- `store` up to its publish. The suffix is what it takes of a `uuid4`. -/
def store (documents : DocumentModule) (policyId kind : String) (content : List UInt8)
    (suffix : String) : DocumentModule × OutboxRecord DocumentStored :=
  let documentKey := key policyId kind suffix
  (⟨documents.contents.insert documentKey content⟩,
    { exchange := Contracts.exchange
      routingKey := Contracts.documentStored
      event := ⟨policyId, documentKey, kind, content.length⟩
      envelope := ⟨"DocumentStored", none, policyId, none⟩ })

def fetch (documents : DocumentModule) (key : String) : Option (List UInt8) :=
  documents.contents.lookup key

def held (documents : DocumentModule) : Nat := documents.contents.keys.card

/-- Keys that end in different suffixes are different, whatever stands before. -/
theorem key_suffix {policyId kind suffix policyId' kind' suffix' : String}
    (length : suffix.length = 8) (length' : suffix'.length = 8)
    (same : key policyId kind suffix = key policyId' kind' suffix') : suffix = suffix' := by
  have characters := congrArg String.toList same
  simp only [key, toString, String.toList_append] at characters
  apply String.toList_injective
  apply List.append_inj_right' characters
  rw [String.length_toList, String.length_toList, length, length']

end DocumentModule

/-! ## The system -/

/-- The arguments of a call of `store`, and the suffix that it draws. -/
structure StoreArguments where
  policyId : String
  kind : String
  content : List UInt8
  suffix : String
deriving DecidableEq

/-- What a call of `store` publishes, beside what the call was given. -/
structure ClaimCheck where
  given : StoreArguments
  record : OutboxRecord DocumentStored
deriving DecidableEq

/-- A call of `store` at its publish, which the broker may have taken. -/
structure StoreCall where
  check : ClaimCheck
  out : Bool
deriving DecidableEq

structure Documents where
  service : DocumentModule
  calls : Multiset StoreCall
  /-- What the broker may yet take, of calls that have raised. -/
  adrift : Multiset ClaimCheck
  published : List ClaimCheck
  /-- What the calls that returned were given, and the keys that they returned. -/
  returned : List (StoreArguments × String)
  /-- The suffixes drawn so far, which nothing reads. -/
  suffixes : List String

inductive DocumentAction
  | store (given : StoreArguments)
  /-- The broker takes what a call publishes. -/
  | publish (call : StoreCall)
  | sent (call : StoreCall)
  /-- The publish raises, or its call is cancelled. -/
  | raise (call : StoreCall)
  /-- The broker takes what the call of a publish that raised had sent. -/
  | arrive (check : ClaimCheck)
deriving DecidableEq

namespace Documents

def initial : Documents := ⟨.new, 0, 0, [], [], []⟩

def Enabled (state : Documents) : DocumentAction → Prop
  | .store given => given.suffix.length = 8
  | .publish call => call ∈ state.calls ∧ call.out = false
  | .sent call => call ∈ state.calls ∧ call.out = true
  | .raise call => call ∈ state.calls
  | .arrive check => check ∈ state.adrift

instance (state : Documents) (action : DocumentAction) : Decidable (state.Enabled action) := by
  rcases action with ⟨⟩ <;> unfold Enabled <;> infer_instance

def perform (state : Documents) : DocumentAction → Documents
  | .store given =>
      let ran := state.service.store given.policyId given.kind given.content given.suffix
      { state with
        service := ran.1
        calls := ⟨⟨given, ran.2⟩, false⟩ ::ₘ state.calls
        suffixes := state.suffixes ++ [given.suffix] }
  | .publish call =>
      { state with
        calls := { call with out := true } ::ₘ state.calls.erase call
        published := state.published ++ [call.check] }
  | .sent call =>
      { state with
        calls := state.calls.erase call
        returned := state.returned ++ [(call.check.given, call.check.record.event.documentKey)] }
  | .raise call =>
      { state with
        calls := state.calls.erase call
        adrift := if call.out then state.adrift else call.check ::ₘ state.adrift }
  | .arrive check =>
      { state with
        adrift := state.adrift.erase check
        published := state.published ++ [check] }

end Documents

def documents : TransitionSystem Documents DocumentAction where
  Initial state := state = Documents.initial
  Enabled := Documents.Enabled
  perform := Documents.perform

instance (state : Documents) (action : DocumentAction) :
    Decidable (documents.Enabled state action) :=
  inferInstanceAs (Decidable (state.Enabled action))

def DistinctSuffixes (state : Documents) : DocumentAction → Prop
  | .store given => given.suffix ∉ state.suffixes
  | _ => True

instance (state : Documents) (action : DocumentAction) :
    Decidable (DistinctSuffixes state action) := by
  rcases action with ⟨⟩ <;> unfold DistinctSuffixes <;> infer_instance

/-! ## What a claim check redeems to -/

/-- The document that the call was given is there, and of the size that the event says. -/
structure DocumentModule.Redeems (documents : DocumentModule) (check : ClaimCheck) : Prop where
  content : documents.fetch check.record.event.documentKey = some check.given.content
  bytes : check.record.event.bytes = check.given.content.length

namespace Documents

def Issued (state : Documents) (check : ClaimCheck) : Prop :=
  (∃ call ∈ state.calls, call.check = check) ∨ check ∈ state.adrift ∨
    check ∈ state.published

/-- Every key held ends in a suffix that was drawn, and every claim check redeems. -/
structure Redeemable (state : Documents) : Prop where
  drawn : ∀ key ∈ state.service.contents, ∃ policyId kind, ∃ suffix ∈ state.suffixes,
    suffix.length = 8 ∧ key = DocumentModule.key policyId kind suffix
  issued : ∀ check, state.Issued check → state.service.Redeems check
  returned : ∀ answer ∈ state.returned,
    state.service.fetch answer.2 = some answer.1.content

private theorem redeemable_initial : Redeemable .initial where
  drawn key held := absurd held Finmap.notMem_empty
  issued check issued := by
    rcases issued with ⟨call, member, -⟩ | member | member
    · exact absurd member (Multiset.notMem_zero _)
    · exact absurd member (Multiset.notMem_zero _)
    · cases member
  returned answer member := by cases member

private theorem Redeemable.fresh {state : Documents} (redeemable : state.Redeemable)
    (policyId kind : String) {suffix : String} (length : suffix.length = 8)
    (distinct : suffix ∉ state.suffixes) :
    DocumentModule.key policyId kind suffix ∉ state.service.contents := by
  intro held
  rcases redeemable.drawn _ held with ⟨otherPolicy, otherKind, other, drawn, otherLength, same⟩
  rw [DocumentModule.key_suffix length otherLength same] at distinct
  exact distinct drawn

/-- No step changes what a key redeems to. -/
theorem Redeemable.fetch_perform {state : Documents} {action : DocumentAction}
    (redeemable : state.Redeemable) (distinct : DistinctSuffixes state action)
    (enabled : state.Enabled action) {key : String} (held : key ∈ state.service.contents) :
    (state.perform action).service.fetch key = state.service.fetch key := by
  cases action with
  | store given =>
      apply Finmap.lookup_insert_of_ne
      intro same
      rw [same] at held
      exact redeemable.fresh given.policyId given.kind enabled distinct held
  | _ => rfl

private theorem held_perform {state : Documents} (action : DocumentAction) {key : String}
    (held : key ∈ state.service.contents) :
    key ∈ (state.perform action).service.contents := by
  cases action with
  | store given => exact Finmap.mem_insert.mpr (.inr held)
  | _ => exact held

private theorem Redeemable.drawn_perform {state : Documents} {action : DocumentAction}
    (redeemable : state.Redeemable) (enabled : state.Enabled action) {key : String}
    (held : key ∈ (state.perform action).service.contents) :
    ∃ policyId kind, ∃ suffix ∈ (state.perform action).suffixes,
      suffix.length = 8 ∧ key = DocumentModule.key policyId kind suffix := by
  cases action with
  | store given =>
      rcases Finmap.mem_insert.mp held with now | before
      · exact ⟨given.policyId, given.kind, given.suffix,
          List.mem_append_right _ (List.mem_singleton.mpr rfl), enabled, now⟩
      · rcases redeemable.drawn key before with ⟨policyId, kind, suffix, drawn, known⟩
        exact ⟨policyId, kind, suffix, List.mem_append_left _ drawn, known⟩
  | _ => exact redeemable.drawn key held

private theorem issued_perform {state : Documents} {action : DocumentAction} {check : ClaimCheck}
    (enabled : state.Enabled action) (issued : (state.perform action).Issued check) :
    state.Issued check ∨ action = .store check.given ∧
      check.record = (state.service.store check.given.policyId check.given.kind
        check.given.content check.given.suffix).2 := by
  cases action with
  | store given =>
      rcases issued with ⟨call, member, same⟩ | adrift | published
      · rcases Multiset.mem_cons.mp member with now | before
        · rw [now] at same
          rw [← same]
          exact .inr ⟨rfl, rfl⟩
        · exact .inl (.inl ⟨call, before, same⟩)
      · exact .inl (.inr (.inl adrift))
      · exact .inl (.inr (.inr published))
  | publish call =>
      left
      rcases issued with ⟨other, member, same⟩ | adrift | published
      · rcases Multiset.mem_cons.mp member with now | before
        · rw [now] at same
          exact .inl ⟨call, enabled.1, same⟩
        · exact .inl ⟨other, Multiset.mem_of_mem_erase before, same⟩
      · exact .inr (.inl adrift)
      · rcases List.mem_append.mp published with before | now
        · exact .inr (.inr before)
        · exact .inl ⟨call, enabled.1, (List.mem_singleton.mp now).symm⟩
  | sent call =>
      left
      rcases issued with ⟨other, member, same⟩ | elsewhere
      · exact .inl ⟨other, Multiset.mem_of_mem_erase member, same⟩
      · exact .inr elsewhere
  | raise call =>
      left
      rcases issued with ⟨other, member, same⟩ | adrift | published
      · exact .inl ⟨other, Multiset.mem_of_mem_erase member, same⟩
      · cases out : call.out with
        | true =>
            simp only [perform, out, if_true] at adrift
            exact .inr (.inl adrift)
        | false =>
            simp only [perform, out, Bool.false_eq_true, if_false, Multiset.mem_cons] at adrift
            rcases adrift with now | before
            · exact .inl ⟨call, enabled, now.symm⟩
            · exact .inr (.inl before)
      · exact .inr (.inr published)
  | arrive arrived =>
      left
      rcases issued with call | adrift | published
      · exact .inl call
      · exact .inr (.inl (Multiset.mem_of_mem_erase adrift))
      · rcases List.mem_append.mp published with before | now
        · exact .inr (.inr before)
        · rw [List.mem_singleton.mp now]
          exact .inr (.inl enabled)

private theorem returned_perform {state : Documents} {action : DocumentAction}
    {answer : StoreArguments × String} (enabled : state.Enabled action)
    (returned : answer ∈ (state.perform action).returned) :
    answer ∈ state.returned ∨
      ∃ check, state.Issued check ∧ (check.given, check.record.event.documentKey) = answer := by
  cases action with
  | sent call =>
      rcases List.mem_append.mp returned with before | now
      · exact .inl before
      · exact .inr ⟨call.check, .inl ⟨call, enabled.1, rfl⟩, (List.mem_singleton.mp now).symm⟩
  | _ => exact .inl returned

private theorem Redeemable.kept {state : Documents} {action : DocumentAction}
    (redeemable : state.Redeemable) (distinct : DistinctSuffixes state action)
    (enabled : state.Enabled action) : (state.perform action).Redeemable := by
  have fetched {key : String} {content : List UInt8}
      (before : state.service.fetch key = some content) :
      (state.perform action).service.fetch key = some content := by
    rw [redeemable.fetch_perform distinct enabled (Finmap.mem_of_lookup_eq_some before)]
    exact before
  constructor
  · intro key held
    exact redeemable.drawn_perform enabled held
  · intro check issued
    rcases issued_perform enabled issued with before | ⟨now, made⟩
    · have redeems := redeemable.issued check before
      exact ⟨fetched redeems.content, redeems.bytes⟩
    · subst now
      constructor
      · rw [made]
        exact Finmap.lookup_insert _
      · rw [made]
        rfl
  · intro answer returned
    rcases returned_perform enabled returned with before | ⟨check, issued, rfl⟩
    · exact fetched (redeemable.returned answer before)
    · exact fetched (redeemable.issued check issued).content

private theorem Redeemable.of_reached {state : Documents}
    (reached : documents.Reached DistinctSuffixes state) : state.Redeemable :=
  reached.invariant Redeemable (fun _ first => by cases first; exact redeemable_initial)
    fun _ _ redeemable distinct enabled => redeemable.kept distinct enabled

/-- A key that is held redeems to the same from then on. -/
theorem Redeemable.fetch_run {key : String} (actions : List DocumentAction)
    {first last : Documents} (redeemable : first.Redeemable)
    (held : key ∈ first.service.contents)
    (ran : documents.run DistinctSuffixes first actions = some last) :
    last.service.fetch key = first.service.fetch key := by
  induction actions generalizing first with
  | nil =>
      cases ran
      rfl
  | cons action actions induction =>
      rcases TransitionSystem.of_run_cons ran with ⟨distinct, enabled, rest⟩
      rw [induction (redeemable.kept distinct enabled) (held_perform action held) rest]
      exact redeemable.fetch_perform distinct enabled held

def Asked (state : Documents) (given : StoreArguments) : Prop :=
  (∃ check, state.Issued check ∧ check.given = given) ∨
    ∃ answer ∈ state.returned, answer.1 = given

private theorem asked_perform {state : Documents} {action : DocumentAction} {given : StoreArguments}
    (enabled : state.Enabled action) (asked : (state.perform action).Asked given) :
    state.Asked given ∨ action = .store given := by
  rcases asked with ⟨check, issued, rfl⟩ | ⟨answer, returned, rfl⟩
  · rcases issued_perform enabled issued with before | ⟨now, -⟩
    · exact .inl (.inl ⟨check, before, rfl⟩)
    · exact .inr now
  · rcases returned_perform enabled returned with before | ⟨check, issued, same⟩
    · exact .inl (.inr ⟨answer, before, rfl⟩)
    · exact .inl (.inl ⟨check, issued, congrArg Prod.fst same⟩)

private theorem asked_run {given : StoreArguments} (actions : List DocumentAction)
    {first last : Documents} (ran : documents.run DistinctSuffixes first actions = some last)
    (asked : last.Asked given) : first.Asked given ∨ .store given ∈ actions := by
  induction actions generalizing first with
  | nil =>
      cases ran
      exact .inl asked
  | cons action actions induction =>
      rcases TransitionSystem.of_run_cons ran with ⟨-, enabled, rest⟩
      rcases induction rest with before | later
      · rcases asked_perform enabled before with earlier | now
        · exact .inl earlier
        · exact .inr (now ▸ List.mem_cons_self)
      · exact .inr (List.mem_cons_of_mem action later)

private theorem not_asked_initial (given : StoreArguments) : ¬ initial.Asked given := by
  rintro (⟨check, ⟨call, member, -⟩ | member | member, -⟩ | ⟨answer, member, -⟩)
  · exact Multiset.notMem_zero _ member
  · exact Multiset.notMem_zero _ member
  · cases member
  · cases member

end Documents

/-- A published claim check redeems to the content given to its call of `store`, then and
ever after, and so does the key that a call returned. -/
theorem claim_check_redeems {actions : List DocumentAction} {state : Documents}
    (ran : documents.run DistinctSuffixes .initial actions = some state) :
    (∀ check ∈ state.published, .store check.given ∈ actions ∧
      state.service.fetch check.record.event.documentKey = some check.given.content ∧
        check.record.event.bytes = check.given.content.length) ∧
    (∀ answer ∈ state.returned, .store answer.1 ∈ actions ∧
      state.service.fetch answer.2 = some answer.1.content) ∧
    ∀ key content, state.service.fetch key = some content →
      ∀ actions later, documents.run DistinctSuffixes state actions = some later →
        later.service.fetch key = some content := by
  have redeemable := Documents.Redeemable.of_reached (.of_run actions (.start rfl) ran)
  have ofRun {given : StoreArguments} (asked : state.Asked given) : .store given ∈ actions :=
    (Documents.asked_run actions ran asked).resolve_left (Documents.not_asked_initial given)
  refine ⟨?_, ?_, ?_⟩
  · intro check published
    have issued : state.Issued check := .inr (.inr published)
    have redeems := redeemable.issued check issued
    exact ⟨ofRun (.inl ⟨check, issued, rfl⟩), redeems.content, redeems.bytes⟩
  · intro answer returned
    exact ⟨ofRun (.inr ⟨answer, returned, rfl⟩), redeemable.returned answer returned⟩
  · intro key content holds actions later ran
    rw [redeemable.fetch_run actions (Finmap.mem_of_lookup_eq_some holds) ran]
    exact holds

def report : StoreArguments := ⟨"p/report", "scan", [1, 2, 3], "22ccdd33"⟩

def scan : StoreArguments := ⟨"p", "report/scan", [4], "0011aabb"⟩

def checkOf (given : StoreArguments) : ClaimCheck :=
  ⟨given, (DocumentModule.new.store given.policyId given.kind given.content given.suffix).2⟩

/-- Two calls whose keys differ in nothing but their suffixes; the event of the one that
raises gets out late. -/
theorem slashes_on_either_side : ∃ state : Documents,
    documents.run DistinctSuffixes .initial
      [.store report, .store scan, .raise ⟨checkOf report, false⟩,
        .publish ⟨checkOf scan, false⟩, .sent ⟨checkOf scan, true⟩,
        .arrive (checkOf report)] = some state ∧
      state.published.map (fun check =>
          (check.record.event.documentKey, check.record.event.bytes)) =
        [("doc/p/report/scan/0011aabb", 1), ("doc/p/report/scan/22ccdd33", 3)] ∧
      (∀ check ∈ state.published,
        state.service.fetch check.record.event.documentKey = some check.given.content) ∧
      state.service.fetch "doc/p/report/scan/22ccdd33" = some [1, 2, 3] := by
  have ran : documents.run DistinctSuffixes .initial
      [.store report, .store scan, .raise ⟨checkOf report, false⟩,
        .publish ⟨checkOf scan, false⟩, .sent ⟨checkOf scan, true⟩,
        .arrive (checkOf report)] = some _ := rfl
  have redeems := claim_check_redeems ran
  exact ⟨_, ran, by decide +kernel, fun check published => (redeems.1 check published).2.1,
    by decide +kernel⟩

end AmqpApps.PolicyAdministration
