import CredBridge.Theorems.AcknowledgedEffects
import CredBridge.Theorems.AgreeingReports
import CredBridge.Theorems.AgreeingVectors
import CredBridge.Theorems.AgreeingWallets
import CredBridge.Theorems.AllOrNothing
import CredBridge.Theorems.AnsweredWebhooks
import CredBridge.Theorems.AuthorizationOnce
import CredBridge.Theorems.BackedMints
import CredBridge.Theorems.BackedWithdrawals
import CredBridge.Theorems.BurnedValue
import CredBridge.Theorems.CallbackOnce
import CredBridge.Theorems.CallbacksArmed
import CredBridge.Theorems.ChainRefinement
import CredBridge.Theorems.DecidedTransactions
import CredBridge.Theorems.DeliveryVersusPayment
import CredBridge.Theorems.EveryoneLeaves
import CredBridge.Theorems.ExactSignatures
import CredBridge.Theorems.FairDeposits
import CredBridge.Theorems.ForeignRequests
import CredBridge.Theorems.ForwardReceivables
import CredBridge.Theorems.InvoiceLifecycle
import CredBridge.Theorems.InvoicePaidOnce
import CredBridge.Theorems.InvoiceRegistry
import CredBridge.Theorems.LandedSubmissions
import CredBridge.Theorems.LateLandings
import CredBridge.Theorems.LedgerAdvances
import CredBridge.Theorems.LossFreeRuns
import CredBridge.Theorems.MintOnce
import CredBridge.Theorems.NavIdentity
import CredBridge.Theorems.OneInvoiceHash
import CredBridge.Theorems.OneOutcome
import CredBridge.Theorems.OrderStatus
import CredBridge.Theorems.OutboxAttempts
import CredBridge.Theorems.OutboxProgress
import CredBridge.Theorems.OutcomeFields
import CredBridge.Theorems.OwnDeposits
import CredBridge.Theorems.OwnSessions
import CredBridge.Theorems.PaidCollections
import CredBridge.Theorems.PixOutOnce
import CredBridge.Theorems.PoolRoles
import CredBridge.Theorems.ProviderOutcomes
import CredBridge.Theorems.ReconcilableCodes
import CredBridge.Theorems.RepaidInvoices
import CredBridge.Theorems.SaleListings
import CredBridge.Theorems.SettledNav
import CredBridge.Theorems.SettledOnce
import CredBridge.Theorems.ShareSupply
import CredBridge.Theorems.SignedCallbacks
import CredBridge.Theorems.SplitPayments
import CredBridge.Theorems.StorableAmounts
import CredBridge.Theorems.TokenCustody
import CredBridge.Theorems.TokenInStep
import CredBridge.Theorems.WebhookAudit
import CredBridge.Theorems.WebhookAuth
