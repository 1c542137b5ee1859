import WzonePortal.Script
import WzonePortal.Table
import WzonePortal.Uuid
import WzonePortal.Domain
import WzonePortal.Resource
import WzonePortal.Schema
import WzonePortal.Session
import WzonePortal.Password
import WzonePortal.Repositories
import WzonePortal.AuthService
import WzonePortal.UserService
import WzonePortal.ConnectionService
import WzonePortal.Api
import WzonePortal.RequestEffect
import WzonePortal.RequestCases
import WzonePortal.Bootstrap
import WzonePortal.AuditFailure
import WzonePortal.LoginTransaction
import WzonePortal.AccountMachine
import WzonePortal.Lockout
import WzonePortal.AccountRefinement
import WzonePortal.ScopeHistory
import WzonePortal.ApprovalGate
import WzonePortal.VmRepository
import WzonePortal.Paging
import WzonePortal.InventoryQuery
import WzonePortal.InventoryScope
import WzonePortal.InventoryPages
import WzonePortal.VmStoreInvariant
import WzonePortal.VmUpsertHistory
import WzonePortal.Interleaving
import WzonePortal.ReadCommitted
import WzonePortal.TransactionRules
import WzonePortal.AccountTransactions
import WzonePortal.AccountCommits
import WzonePortal.LastAdmin
import WzonePortal.StatusHistory
import WzonePortal.SerialRequests
import WzonePortal.Linearization
import WzonePortal.LoginDisclosure
import WzonePortal.ErrorResponses
import WzonePortal.RegistrationDisclosure
import WzonePortal.PasswordReset
import WzonePortal.FailureCount
import WzonePortal.ScriptRules
import WzonePortal.NameLock
import WzonePortal.CollectService
import WzonePortal.CollectionLock
import WzonePortal.CollectionWorld
import WzonePortal.CollectionRuns
import WzonePortal.InventoryReaders
import WzonePortal.PartialFailures
import WzonePortal.CredentialErrors
import WzonePortal.VCenterMapper
import WzonePortal.VCenterIdentity
import WzonePortal.FirstWins
import WzonePortal.UniquenessRace
import WzonePortal.VmObservations
import WzonePortal.Recollection
import WzonePortal.PortalHistory
import WzonePortal.ConnectionDelete
import WzonePortal.TemporaryPassword
import WzonePortal.StartupHistory
import WzonePortal.StageRunner
import WzonePortal.ReaderChecks
import WzonePortal.Base64
import WzonePortal.CredentialCipher
import WzonePortal.ConnectionSchema
import WzonePortal.ConnectionsPage
import WzonePortal.Regex
import WzonePortal.Masking
import WzonePortal.ErrorTranslation
import WzonePortal.CredentialContracts
import WzonePortal.ClusterListing
import WzonePortal.FailureStatus
import WzonePortal.CollectionCounts
import WzonePortal.Generator
import WzonePortal.ClusterSessions
import WzonePortal.HypervMapper
import WzonePortal.MalformedRows
import WzonePortal.ReaderContainment
import WzonePortal.RegexScan
import WzonePortal.MaskTwice
import WzonePortal.RegexCut
import WzonePortal.MaskShapes
import WzonePortal.HeaderSchemes
import WzonePortal.MaskHeaders
import WzonePortal.PercentFormat
import WzonePortal.LogMasking
import WzonePortal.JeaEndpoint
import WzonePortal.NetworkFailures
import WzonePortal.BootstrapRace
import WzonePortal.RetryAsync
import WzonePortal.PropertyCollector
import WzonePortal.GuestConsistency
import WzonePortal.VmCounts
import WzonePortal.VmListPage
import WzonePortal.RoseTree
import WzonePortal.ArchCheck
import WzonePortal.SessionRoutes
import WzonePortal.AuditedRequests
import WzonePortal.AuditTrail
import WzonePortal.ChainOfTrust
import WzonePortal.Tokens
import WzonePortal.SessionTokens
import WzonePortal.TwoRuns
import WzonePortal.ConnectionLikeness
import WzonePortal.ConnectionSecrets
import WzonePortal.ArchProject
import WzonePortal.ArchMatrix
import WzonePortal.InventoryRoute
import WzonePortal.ScopedHistory
import WzonePortal.OsCell
import WzonePortal.ListedHistory
import WzonePortal.ConnectionForm
import WzonePortal.PageGuards
import WzonePortal.UsersPage
import WzonePortal.UsersPageRuns
import WzonePortal.OfferedActions
