import AmqpApps.Foundation.TransitionSystem
import AmqpApps.Foundation.Numbers
import AmqpApps.Foundation.Tally
import AmqpApps.Foundation.Filing
import AmqpApps.Foundation.SequentialObject
import AmqpApps.Foundation.KeyedBags
import AmqpApps.Foundation.Lease
import AmqpApps.Wire
import AmqpApps.CamelCase
import AmqpApps.Ledger.Contracts
import AmqpApps.Ledger.Balances
import AmqpApps.Ledger.Rebuild
import AmqpApps.Ledger.RebuildCompleteness
import AmqpApps.Ledger.LedgerModule
import AmqpApps.Ledger.Books
import AmqpApps.Ledger.Overdraft
import AmqpApps.Ledger.Promises
import AmqpApps.Ledger.SingleApplication
import AmqpApps.Ledger.Bank
import AmqpApps.Ledger.Linearizability
import AmqpApps.Ledger.Projections
import AmqpApps.Ledger.ThreeViews
import AmqpApps.Ledger.NoCreation
import AmqpApps.Fulfilment.Contracts
import AmqpApps.Fulfilment.Payments
import AmqpApps.Fulfilment.OrderLoss
import AmqpApps.Fulfilment.Inventory
import AmqpApps.Fulfilment.StockConservation
import AmqpApps.PolicyAdministration.Contracts
import AmqpApps.PolicyAdministration.Billing
import AmqpApps.PolicyAdministration.Application
import AmqpApps.PolicyAdministration.Messages
import AmqpApps.PolicyAdministration.Prospects
import AmqpApps.PolicyAdministration.OnePremium
import AmqpApps.PolicyAdministration.Justification
import AmqpApps.Dialects
import AmqpApps.PolicyAdministration.EndToEnd
import AmqpApps.Fulfilment.Fleet
import AmqpApps.Fulfilment.OneOutcome
import AmqpApps.Fulfilment.Shipping
import AmqpApps.Fulfilment.HandledAgain
import AmqpApps.Foundation.Script
import AmqpApps.Foundation.UnitOfWork
import AmqpApps.Fulfilment.Gateway
import AmqpApps.PolicyAdministration.Policies
import AmqpApps.OutboxWrites
import AmqpApps.PolicyAdministration.ClaimDecisions
import AmqpApps.Fulfilment.Services
import AmqpApps.Fulfilment.Stories
import AmqpApps.Fulfilment.Traffic
import AmqpApps.Fulfilment.Progress
import AmqpApps.Fulfilment.Timeline
import AmqpApps.Fulfilment.FlakyWarehouse
import AmqpApps.Fulfilment.NoOversell
import AmqpApps.PolicyAdministration.Documents
import AmqpApps.StandingLoad.Load
import AmqpApps.StandingLoad.Accounting
import AmqpApps.Ledger.RebuildLoop
import AmqpApps.Foundation.Regex
import AmqpApps.Foundation.RegexParts
import AmqpApps.AttributionGuard.Agreement
import AmqpApps.Ledger.RebuildRuns
import AmqpApps.Foundation.Runs
import AmqpApps.Fulfilment.Settling
import AmqpApps.Fulfilment.DeadLetters
import AmqpApps.Fulfilment.WholeStories
import AmqpApps.Fulfilment.Counters
import AmqpApps.Fulfilment.Shop
import AmqpApps.Fulfilment.OneCounter
import AmqpApps.Fulfilment.ShopStories
import AmqpApps.PolicyAdministration.Settling
import AmqpApps.Ledger.Interruptions
import AmqpApps.Ledger.Settling
import AmqpApps.PolicyAdministration.PoliciesInForce
import AmqpApps.PolicyAdministration.ClaimsSettling
import AmqpApps.Fulfilment.Storefront
import AmqpApps.Foundation.Pipe
import AmqpApps.AttributionGuard.Verdict
import AmqpApps.Ledger.Readers
import AmqpApps.StandingLoad.Stopping
import AmqpApps.Foundation.Transactions
import AmqpApps.PolicyAdministration.Monolith
import AmqpApps.PolicyAdministration.Submissions
import AmqpApps.Fulfilment.Alone
