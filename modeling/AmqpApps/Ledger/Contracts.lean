import AmqpApps.Wire

/-! # What the ledger's modules agree on

The events and the command of `contracts.py`. A handler's `from_wire` is not
repeated in the models below: `EntryPosted.fromWire_toWire` and its siblings
say that it gives back what `to_wire` was given.
-/

namespace AmqpApps.Ledger

structure EntryPosted where
  entryId : String
  transferId : String
  account : String
  amountMinor : Int
  description : String
deriving DecidableEq

structure TransferRejected where
  transferId : String
  from_ : String
  to_ : String
  amountMinor : Int
  reason : String
deriving DecidableEq

structure Transfer where
  transferId : String
  from_ : String
  to_ : String
  amountMinor : Int
  description : String
deriving DecidableEq

/-! ## The wire form -/

def EntryPosted.fieldNames : List String :=
  ["entry_id", "transfer_id", "account", "amount_minor", "description"]

def EntryPosted.asdict (entry : EntryPosted) : Fields :=
  [("entry_id", .str entry.entryId), ("transfer_id", .str entry.transferId),
    ("account", .str entry.account), ("amount_minor", .int entry.amountMinor),
    ("description", .str entry.description)]

def TransferRejected.fieldNames : List String :=
  ["transfer_id", "from_", "to", "amount_minor", "reason"]

def TransferRejected.asdict (rejection : TransferRejected) : Fields :=
  [("transfer_id", .str rejection.transferId), ("from_", .str rejection.from_),
    ("to", .str rejection.to_), ("amount_minor", .int rejection.amountMinor),
    ("reason", .str rejection.reason)]

def Transfer.fieldNames : List String :=
  ["transfer_id", "from_", "to", "amount_minor", "description"]

def Transfer.asdict (transfer : Transfer) : Fields :=
  [("transfer_id", .str transfer.transferId), ("from_", .str transfer.from_),
    ("to", .str transfer.to_), ("amount_minor", .int transfer.amountMinor),
    ("description", .str transfer.description)]

theorem EntryPosted.fromWire_toWire (entry : EntryPosted) :
    fromWire camelStripped fieldNames (toWire camelStripped entry.asdict) =
      .ok entry.asdict :=
  AmqpApps.fromWire_toWire camelStripped entry.asdict
    (show (fieldNames.map camelStripped).Nodup by decide)

theorem TransferRejected.fromWire_toWire (rejection : TransferRejected) :
    fromWire camelStripped fieldNames (toWire camelStripped rejection.asdict) =
      .ok rejection.asdict :=
  AmqpApps.fromWire_toWire camelStripped rejection.asdict
    (show (fieldNames.map camelStripped).Nodup by decide)

theorem Transfer.fromWire_toWire (transfer : Transfer) :
    fromWire camelStripped fieldNames (toWire camelStripped transfer.asdict) =
      .ok transfer.asdict :=
  AmqpApps.fromWire_toWire camelStripped transfer.asdict
    (show (fieldNames.map camelStripped).Nodup by decide)

end AmqpApps.Ledger
