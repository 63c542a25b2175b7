import FinancialDashboard.Lib.Transition
import FinancialDashboard.Lib.PyText
import FinancialDashboard.Paisa.SyncState
import FinancialDashboard.Paisa.Publisher
import FinancialDashboard.Paisa.Orchestrator
import FinancialDashboard.Paisa.Coordinator
import FinancialDashboard.Paisa.Throttle
import FinancialDashboard.Paisa.GenerateFailure
import FinancialDashboard.Paisa.Interleaving
import FinancialDashboard.Paisa.Revisions
import FinancialDashboard.Paisa.LostUpdate
import FinancialDashboard.Paisa.Fencing
import FinancialDashboard.Paisa.PeriodicReload
import FinancialDashboard.Transactions.Masks
import FinancialDashboard.Transactions.Record
import FinancialDashboard.Transactions.Matching
import FinancialDashboard.Transactions.Resolution
import FinancialDashboard.Transactions.CrossInstrument
import FinancialDashboard.Transactions.Merge
import FinancialDashboard.Transactions.Reingest
import FinancialDashboard.Lib.Dict
import FinancialDashboard.Lib.Timeline
import FinancialDashboard.Networth.Snapshots
import FinancialDashboard.Networth.Current
import FinancialDashboard.Paisa.Accounts
import FinancialDashboard.Paisa.Valuation
import FinancialDashboard.Transactions.SmsPipeline
import FinancialDashboard.Transactions.Attachment
import FinancialDashboard.Transactions.SmsLinks
import FinancialDashboard.Lib.FirstCome
import FinancialDashboard.Statements.Contention
import FinancialDashboard.Statements.CreditCard
import FinancialDashboard.Statements.CcPartition
import FinancialDashboard.Statements.CcOrder
import FinancialDashboard.Statements.Bank
import FinancialDashboard.Statements.BankPartition
import FinancialDashboard.Statements.Import
import FinancialDashboard.Statements.Reimport
import FinancialDashboard.Paisa.Accounting
import FinancialDashboard.Transactions.Booked
import FinancialDashboard.Lib.Posting
import FinancialDashboard.Paisa.Projection
import FinancialDashboard.Paisa.Conservation
import FinancialDashboard.Lib.Rounding
import FinancialDashboard.Paisa.Rendering
import FinancialDashboard.Paisa.Balance
import FinancialDashboard.Cashflow.Buckets
import FinancialDashboard.Cashflow.Reconciliation
import FinancialDashboard.Lib.Calendar
import FinancialDashboard.Cashflow.Trend
import FinancialDashboard.Cashflow.Listing
import FinancialDashboard.Cashflow.DrillThrough
import FinancialDashboard.Networth.Trend
import FinancialDashboard.Payments.Cycle
import FinancialDashboard.Payments.Newest
import FinancialDashboard.Payments.Recompute
import FinancialDashboard.Payments.Tracking
import FinancialDashboard.Lib.Decimal
import FinancialDashboard.Lib.Numbering
import FinancialDashboard.Payments.Reminders
import FinancialDashboard.Investments.Consumption
import FinancialDashboard.Investments.Lots
import FinancialDashboard.Investments.Canonical
import FinancialDashboard.Investments.CanonicalConsumption
import FinancialDashboard.Lib.Budget
import FinancialDashboard.Paisa.Diagnosis
import FinancialDashboard.Lib.OrderedDict
import FinancialDashboard.Paisa.ReportCache
import FinancialDashboard.Paisa.Invalidation
import FinancialDashboard.Investments.Ingest
import FinancialDashboard.Investments.Recorded
import FinancialDashboard.Categorization.Engine
import FinancialDashboard.Categorization.Sweep
import FinancialDashboard.Lib.PyJson
import FinancialDashboard.Transactions.DuplicateResolution
import FinancialDashboard.Transactions.Completion
import FinancialDashboard.Mail.Gmail
import FinancialDashboard.Mail.Fastmail
import FinancialDashboard.Mail.Polling
import FinancialDashboard.Transactions.EmailPipeline
import FinancialDashboard.Transactions.Enrichment
import FinancialDashboard.Transactions.EventPoint
import FinancialDashboard.Transactions.ReceivedTime
import FinancialDashboard.Payments.OpenEnded
import FinancialDashboard.Payments.PaymentState
import FinancialDashboard.Categorization.PairedLegs
import FinancialDashboard.Transactions.LinkAmbiguity
import FinancialDashboard.Paisa.ProjectedBalance
import FinancialDashboard.Statements.Renumbering
import FinancialDashboard.Statements.BadStrings
import FinancialDashboard.Statements.AccountByMask
import FinancialDashboard.Statements.RefreshIdentity
import FinancialDashboard.Paisa.AtomicPublish
import FinancialDashboard.Paisa.Escalation
import FinancialDashboard.Payments.Disambiguation
import FinancialDashboard.Lib.Words
import FinancialDashboard.Paisa.InternalMovements
import FinancialDashboard.Paisa.Naming
import FinancialDashboard.Paisa.FxRates
import FinancialDashboard.Paisa.Document
import FinancialDashboard.Paisa.SelfContained
import FinancialDashboard.Lib.Skeleton
import FinancialDashboard.Paisa.JournalSkeleton
import FinancialDashboard.Paisa.FreeText
import FinancialDashboard.Lib.Find
import FinancialDashboard.Statements.WholeToken
import FinancialDashboard.Paisa.CardMaps
import FinancialDashboard.Transactions.WrittenMasks
import FinancialDashboard.Lib.DisjointSets
import FinancialDashboard.Statements.ContestedGroups
import FinancialDashboard.Lib.Drain
import FinancialDashboard.Categorization.Backfill
import FinancialDashboard.Lib.Regex
import FinancialDashboard.Lib.Spelling
import FinancialDashboard.Categorization.Redaction
import FinancialDashboard.Categorization.Prompt
import FinancialDashboard.Statements.CandidateScope
import FinancialDashboard.Statements.ReconciliationPreview
import FinancialDashboard.Backups.Names
import FinancialDashboard.Backups.Protocol
import FinancialDashboard.Backups.Soundness
import FinancialDashboard.Backups.Publication
import FinancialDashboard.Backups.Exclusion
import FinancialDashboard.Backups.Retention
import FinancialDashboard.Lib.PyInt
import FinancialDashboard.Settings.Store
import FinancialDashboard.Transactions.ParsePreview
import FinancialDashboard.Settings.Coherence
import FinancialDashboard.Lib.Simulation
import FinancialDashboard.Settings.Journal
import FinancialDashboard.Settings.MasterKey
import FinancialDashboard.Settings.Form
import FinancialDashboard.Mail.Dispatch
import FinancialDashboard.Mail.Ingest
import FinancialDashboard.Mail.PollAll
import FinancialDashboard.Mail.CasRules
import FinancialDashboard.Mail.SingleFlight
import FinancialDashboard.Paisa.ValuationParity
