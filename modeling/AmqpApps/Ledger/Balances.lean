import AmqpApps.Foundation.Numbers
import AmqpApps.Foundation.Tally
import AmqpApps.Ledger.Contracts

/-! # Balances computed by reading the journal

`Balances` asks of an account that it can be a dictionary key and of an amount
that it can be added. The writer, which builds its entries itself, uses it at
strings and whole minor units; the rebuild at whatever the journal's messages
hold, where an addition can raise.
-/

namespace AmqpApps.Ledger

structure Balances (Account : Type u) (Amount : Type v) where
  accounts : Tally Account Amount
  replayed : Nat

namespace Balances

def new : Balances Account Amount := ⟨∅, 0⟩

variable [DecidableEq Account] [AddCommMonoid Amount]

def apply (balances : Balances Account Amount) (line : Account × Amount) :
    Balances Account Amount :=
  { balances with accounts := balances.accounts.add line }

def of (balances : Balances Account Amount) (account : Account) : Amount :=
  balances.accounts.of account

def snapshot (balances : Balances Account Amount) : Tally Account Amount :=
  balances.accounts

/-- The closure `replay` on an entry it can apply. -/
def replayLine (balances : Balances Account Amount) (line : Account × Amount) :
    Balances Account Amount :=
  { balances.apply line with replayed := balances.replayed + 1 }

def readThrough (lines : List (Account × Amount)) : Balances Account Amount :=
  lines.foldl replayLine new

@[simp] theorem of_apply (balances : Balances Account Amount)
    (line : Account × Amount) (account : Account) :
    (balances.apply line).of account = balances.of account + amountFor account line :=
  Tally.of_add _ _ _

theorem readThrough_concat (lines : List (Account × Amount)) (line : Account × Amount) :
    readThrough (lines ++ [line]) = (readThrough lines).replayLine line := by
  simp [readThrough]

theorem readThrough_eq (lines : List (Account × Amount)) :
    readThrough lines = ⟨Tally.addAll ∅ lines, lines.length⟩ := by
  induction lines using List.reverseRecOn with
  | nil => rfl
  | append_singleton lines line induction =>
      rw [readThrough_concat, induction, Tally.addAll_append]
      simp [replayLine, apply]

@[simp] theorem of_readThrough (lines : List (Account × Amount)) (account : Account) :
    (readThrough lines).of account = (lines.map (amountFor account)).sum := by
  rw [readThrough_eq, of, Tally.of_addAll, Tally.of_empty, zero_add]

end Balances

def EntryPosted.line (entry : EntryPosted) : String × Int :=
  (entry.account, entry.amountMinor)

/-! ## Entries as the journal's messages hold them -/

/-- `EntryPosted` as `from_wire` builds it, with values of any type. -/
structure DecodedEntry where
  entryId : Value
  transferId : Value
  account : Value
  amountMinor : Value
  description : Value

/-- The payload of a message: a JSON object, or anything else, which has no fields to be looked
up. -/
inductive Body
  | object (payload : Payload)
  | notObject

def EntryPosted.wire (entry : EntryPosted) : Body := .object (toWire camelStripped entry.asdict)

def decodeEntry : Body → Except PyError DecodedEntry
  | .notObject => .error .typeError
  | .object payload =>
      match fromWire camelStripped EntryPosted.fieldNames payload with
      | .ok [entryId, transferId, account, amountMinor, description] =>
          .ok ⟨entryId.2, transferId.2, account.2, amountMinor.2, description.2⟩
      | .ok _ => .error .typeError
      | .error error => .error error

/-- A value as a dictionary key. Python's `True`, `1` and `1.0` are one key. -/
inductive AccountKey
  | none
  | number (value : ℚ)
  | infinite (negative : Bool)
  | str (value : String)
deriving DecidableEq

def accountKey : Value → Option AccountKey
  | .none => some .none
  | .bool value => some (.number (if value then 1 else 0))
  | .int value => some (.number value)
  | .float value =>
      match exactly (nearest value) with
      | some exact => some (.number exact)
      | Option.none => some (.infinite (decide (value < 0)))
  | .str value => some (.str value)
  | .list _ => Option.none
  | .dict _ => Option.none

def addend : Value → Option Number
  | .bool value => some (.int (if value then 1 else 0))
  | .int value => some (.int value)
  | .float value => some (.float (nearest value))
  | .none | .str _ | .list _ | .dict _ => Option.none

def DecodedEntry.line (entry : DecodedEntry) : Option (AccountKey × Number) :=
  match accountKey entry.account, addend entry.amountMinor with
  | some account, some amount => some (account, amount)
  | _, _ => Option.none

namespace Balances

/-- The lookup of `+=` on a `defaultdict`. -/
def touch (balances : Balances AccountKey Number) (account : AccountKey) :
    Balances AccountKey Number :=
  { balances with
    accounts := balances.accounts.insert account (Numbers.of balances.accounts account) }

/-- `apply` on an entry of unknown types. A key is looked up, and so created at zero, before the
amount turns out not to be a number, or one that cannot be added. -/
def applyDecoded (balances : Balances AccountKey Number) (entry : DecodedEntry) :
    Balances AccountKey Number × Option PyError :=
  match accountKey entry.account, addend entry.amountMinor with
  | Option.none, _ => (balances, some .typeError)
  | some account, Option.none => (balances.touch account, some .typeError)
  | some account, some amount =>
      match Numbers.add balances.accounts (account, amount) with
      | some accounts => ({ balances with accounts := accounts }, Option.none)
      | Option.none => (balances.touch account, some .overflowError)

/-- The closure `replay` of `rebuilt_from`: the balances afterwards, and the
exception it raised if it did. -/
def replay (balances : Balances AccountKey Number) (body : Body) :
    Balances AccountKey Number × Option PyError :=
  match decodeEntry body with
  | .error error => (balances, some error)
  | .ok entry =>
      match balances.applyDecoded entry with
      | (applied, some error) => (applied, some error)
      | (applied, Option.none) =>
          ({ applied with replayed := applied.replayed + 1 }, Option.none)

end Balances

def Body.line (body : Body) : Option (AccountKey × Number) :=
  match decodeEntry body with
  | .error _ => Option.none
  | .ok entry => entry.line

def completed {State : Type u} : State × Option PyError → Option State
  | (state, Option.none) => some state
  | (_, some _) => Option.none

/-- `replay` raises on a message without a line, and on one whose amount is too large to be
added. -/
theorem completed_replay (balances : Balances AccountKey Number) (body : Body) :
    completed (balances.replay body) =
      body.line.bind fun line =>
        (Numbers.add balances.accounts line).map fun accounts =>
          ⟨accounts, balances.replayed + 1⟩ := by
  rw [Balances.replay, Body.line]
  cases decodeEntry body with
  | error error => rfl
  | ok entry =>
      simp only [Balances.applyDecoded, DecodedEntry.line]
      cases accountKey entry.account with
      | none => rfl
      | some account =>
          cases addend entry.amountMinor with
          | none => rfl
          | some amount =>
              simp only [Option.bind_some]
              cases Numbers.add balances.accounts (account, amount) <;> rfl

@[simp] theorem line_wire (entry : EntryPosted) :
    entry.wire.line = some (.str entry.account, .int entry.amountMinor) := by
  rw [Body.line, EntryPosted.wire, decodeEntry, EntryPosted.fromWire_toWire]
  rfl

/-- One dictionary, its keys and numbers written as the writer holds them and
as `from_wire` reads them. -/
def SameDict (snapshot : Tally String Int) (read : Numbers AccountKey) : Prop :=
  (∀ account, read.lookup (.str account) = (snapshot.lookup account).map Number.int) ∧
  ∀ key ∈ read, ∃ account, key = .str account

/-- Whole minor units can always be added. -/
theorem SameDict.add {snapshot : Tally String Int} {read : Numbers AccountKey}
    (same : SameDict snapshot read) (account : String) (amountMinor : Int) :
    ∃ more, Numbers.add read (.str account, .int amountMinor) = some more ∧
      SameDict (snapshot.add (account, amountMinor)) more := by
  have held : Numbers.of read (.str account) = .int (snapshot.of account) := by
    rw [Numbers.of, same.1, Tally.of]
    cases snapshot.lookup account <;> rfl
  refine ⟨read.insert (.str account) (.int (snapshot.of account + amountMinor)), ?_, ?_, ?_⟩
  · rw [Numbers.add, held]
    rfl
  · intro other
    by_cases its : other = account
    · subst its
      rw [Finmap.lookup_insert, Tally.add, Finmap.lookup_insert]
      rfl
    · rw [Finmap.lookup_insert_of_ne _ fun equal => its (AccountKey.str.inj equal), same.1,
        Tally.add, Finmap.lookup_insert_of_ne _ its]
  · intro key member
    rcases Finmap.mem_insert.mp member with now | before
    · exact ⟨account, now⟩
    · exact same.2 key before

end AmqpApps.Ledger
