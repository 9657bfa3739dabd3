import AmqpApps.Wire

/-! # What the modules of the policy application agree on

The events of `contracts.py`, and the question that claims asks of policies. As
in the other applications, what a handler reads is what was written.
-/

namespace AmqpApps.PolicyAdministration

/-! ## Routing -/

namespace Contracts

def exchange : String := "policy"

def applicationSubmitted : String := "policy.application.submitted"

def policyIssued : String := "policy.policy.issued"

def documentStored : String := "policy.document.stored"

end Contracts

/-! ## Events -/

structure ApplicationSubmitted where
  applicationId : String
  applicant : String
  product : String
  sumAssured : Int
  ageOfApplicant : Int
deriving DecidableEq

structure ApplicationAccepted where
  applicationId : String
  applicant : String
  product : String
  sumAssured : Int
  annualPremium : Int
deriving DecidableEq

structure ApplicationDeclined where
  applicationId : String
  applicant : String
  reason : String
deriving DecidableEq

structure PolicyIssued where
  policyId : String
  applicationId : String
  applicant : String
  product : String
  annualPremium : Int
deriving DecidableEq

structure DocumentStored where
  policyId : String
  documentKey : String
  kind : String
  bytes : Int
deriving DecidableEq

structure PremiumCharged where
  policyId : String
  applicant : String
  amount : Int
deriving DecidableEq

structure ClaimSettled where
  claimId : String
  policyId : String
  paid : Int
deriving DecidableEq

structure ClaimRejected where
  claimId : String
  policyId : String
  reason : String
deriving DecidableEq

structure PolicyQuery where
  policyId : String
deriving DecidableEq

structure PolicyStatus where
  policyId : String
  inForce : Bool
  annualPremium : Int
deriving DecidableEq

/-! ## The wire form -/

def ApplicationSubmitted.asdict (event : ApplicationSubmitted) : Fields :=
  [("application_id", .str event.applicationId), ("applicant", .str event.applicant),
    ("product", .str event.product), ("sum_assured", .int event.sumAssured),
    ("age_of_applicant", .int event.ageOfApplicant)]

def ApplicationAccepted.asdict (event : ApplicationAccepted) : Fields :=
  [("application_id", .str event.applicationId), ("applicant", .str event.applicant),
    ("product", .str event.product), ("sum_assured", .int event.sumAssured),
    ("annual_premium", .int event.annualPremium)]

def PolicyIssued.asdict (event : PolicyIssued) : Fields :=
  [("policy_id", .str event.policyId), ("application_id", .str event.applicationId),
    ("applicant", .str event.applicant), ("product", .str event.product),
    ("annual_premium", .int event.annualPremium)]

def DocumentStored.asdict (event : DocumentStored) : Fields :=
  [("policy_id", .str event.policyId), ("document_key", .str event.documentKey),
    ("kind", .str event.kind), ("bytes", .int event.bytes)]

def ApplicationSubmitted.fieldNames : List String :=
  ["application_id", "applicant", "product", "sum_assured", "age_of_applicant"]

def ApplicationAccepted.fieldNames : List String :=
  ["application_id", "applicant", "product", "sum_assured", "annual_premium"]

def PolicyIssued.fieldNames : List String :=
  ["policy_id", "application_id", "applicant", "product", "annual_premium"]

def ApplicationDeclined.fieldNames : List String := ["application_id", "applicant", "reason"]

def DocumentStored.fieldNames : List String := ["policy_id", "document_key", "kind", "bytes"]

def PremiumCharged.fieldNames : List String := ["policy_id", "applicant", "amount"]

def ClaimSettled.fieldNames : List String := ["claim_id", "policy_id", "paid"]

def ClaimRejected.fieldNames : List String := ["claim_id", "policy_id", "reason"]

def PolicyQuery.fieldNames : List String := ["policy_id"]

def PolicyStatus.fieldNames : List String := ["policy_id", "in_force", "annual_premium"]

theorem ApplicationSubmitted.fromWire_toWire (event : ApplicationSubmitted) :
    fromWire camel fieldNames (toWire camel event.asdict) = .ok event.asdict :=
  AmqpApps.fromWire_toWire camel event.asdict (show (fieldNames.map camel).Nodup by decide)

theorem ApplicationAccepted.fromWire_toWire (event : ApplicationAccepted) :
    fromWire camel fieldNames (toWire camel event.asdict) = .ok event.asdict :=
  AmqpApps.fromWire_toWire camel event.asdict (show (fieldNames.map camel).Nodup by decide)

theorem PolicyIssued.fromWire_toWire (event : PolicyIssued) :
    fromWire camel fieldNames (toWire camel event.asdict) = .ok event.asdict :=
  AmqpApps.fromWire_toWire camel event.asdict (show (fieldNames.map camel).Nodup by decide)

theorem DocumentStored.fromWire_toWire (event : DocumentStored) :
    fromWire camel fieldNames (toWire camel event.asdict) = .ok event.asdict :=
  AmqpApps.fromWire_toWire camel event.asdict (show (fieldNames.map camel).Nodup by decide)

end AmqpApps.PolicyAdministration
