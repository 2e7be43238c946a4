import RadiusModule.Services.AccountingRuns
import RadiusModule.Services.QuotaConservation
import RadiusModule.Services.DeviceSeats
import RadiusModule.Services.PolicyEngine.TimeCaps
import RadiusModule.Services.PolicyEngine.CardTime
import RadiusModule.Services.PolicyEngine.RejectedLogin
import RadiusModule.Services.ManagerDebt
import RadiusModule.Services.Idempotency
import RadiusModule.Services.Store.RequestRuns
import RadiusModule.Services.CardMarket.PurchaseSaga
import RadiusModule.Services.CardMarket.StockSold
import RadiusModule.Services.JobsRunner
import RadiusModule.Services.AllowModeRuns
import RadiusModule.Services.PolicyEngine.LiveCards
import RadiusModule.Services.Accounting.Changes
import RadiusModule.Services.CardStore.LoginNames
import RadiusModule.Services.PolicyEngine.ReplyRate
import RadiusModule.Services.PolicyEngine.ResetServed
import RadiusModule.Services.ManagerGrants
import RadiusModule.Services.CustomerPortals.RedeemRuns
import RadiusModule.Services.DistributorLedger
import RadiusModule.Services.Migration.Commit
import RadiusModule.Services.Users.EditVersions
import RadiusModule.Services.CardSpellings
import RadiusModule.Services.LogRetention
import RadiusModule.Services.PolicyReconciler
import RadiusModule.Services.SubscriberWallet.Runs
import RadiusModule.Services.PolicyEngine.OwnDevice
import RadiusModule.Services.WindowEnd
import RadiusModule.Core.ScheduleCodec
import RadiusModule.Services.PolicyEngine.DailyUse
import RadiusModule.Services.Accounting.LoanPlan
import RadiusModule.Services.ManagerReversal
import RadiusModule.Integration.Mikrotik.Sentences
import RadiusModule.Services.RadiusPackets
import RadiusModule.Services.CardReconcile.Agreement
import RadiusModule.Services.UserPassword
import RadiusModule.Services.PolicyEngine.SecondsBudget
import RadiusModule.Services.Accounting.Proportional
import RadiusModule.Services.CardStore.UsernameSpace
import RadiusModule.Services.BatchArchive
import RadiusModule.Services.CardTime.GrantAdds
import RadiusModule.Services.CardTime.Freeze
import RadiusModule.Services.CardTime.Realign
import RadiusModule.Services.TempSpeed.Residue
import RadiusModule.Services.AccessControl.AutoBlock
import RadiusModule.Services.Migration.SqlStatements
import RadiusModule.Services.Migration.SqlValues
import RadiusModule.Services.Migration.SqlCreate
import RadiusModule.Core.SharedState
import RadiusModule.Services.LoginThrottle
import RadiusModule.Services.DeviceEviction
import RadiusModule.Services.Migration.ConnectionSchedule
import RadiusModule.Services.Migration.AccountStatus
import RadiusModule.Services.Migration.SeriesNames
import RadiusModule.Services.Migration.ValueParse
import RadiusModule.Services.SessionReconciler.Closings
import RadiusModule.Services.OwnerWallets
import RadiusModule.Services.Bandwidth.RuleDays
import RadiusModule.Services.AntiMacClone.Decisions
import RadiusModule.Services.CustomerPortals.LoanRequests
import RadiusModule.Services.Users.PlanChange
import RadiusModule.Services.WgPeers.Provisioning
import RadiusModule.Services.WgData.Interleavings
import RadiusModule.Services.DelegationFits
import RadiusModule.Services.WgData.Quota
import RadiusModule.Services.SavedOverrides
import RadiusModule.Services.AccessControl.Lookup
import RadiusModule.Services.RecycleBin
import RadiusModule.Services.Lifecycle
import RadiusModule.Services.ProxyTunnel
import RadiusModule.Services.LicenseLifecycle
import RadiusModule.Services.ProviderCap
import RadiusModule.Services.TentativeReclaimer
import RadiusModule.Services.GeneralAdjustments
import RadiusModule.Services.CostedBatches
import RadiusModule.Services.QuotaTopups
import RadiusModule.Services.DomainAnalyzer
import RadiusModule.Services.SyncWorker
import RadiusModule.Services.AuthLogWriter
import RadiusModule.Integration.Mikrotik.Pool
