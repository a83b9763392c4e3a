import Useful.Math.PrefixCode
import Useful.Math.Unicode
import Useful.Math.Checks
import Useful.Math.Transition
import Useful.Math.Table
import Useful.Math.Tasks
import Useful.Math.Program
import Useful.Math.Connection
import Useful.Math.FileTree
import Useful.Math.Json
import Useful.Math.Text
import Useful.Math.Threshold
import Useful.Tuf.Metadata
import Useful.Tuf.Canonical
import Useful.Tuf.RoleDoc
import Useful.Tuf.Verify
import Useful.Interop.CanonicalJson
import Useful.Core.TufState
import Useful.Core.TufHistory
import Useful.Core.Registry
import Useful.Plugins.Manifest
import Useful.Plugins.ToolTables
import Useful.Plugins.Install
import Useful.Plugins.InstallRollback
import Useful.Plugins.ZipSafety
import Useful.Plugins.InstalledManifest
import Useful.Plugins.Persist
import Useful.Plugins.AllOrNothing
import Useful.Plugins.LocalRollback
import Useful.Plugins.Uninstall
import Useful.Media.PackActivation
import Useful.Media.PackHistory
import Useful.Media.FailedActivation
import Useful.Media.UpstreamRollback
import Useful.Server.Domain
import Useful.Server.Repository
import Useful.Server.Metadata
import Useful.Server.Publishers
import Useful.Server.StagedBytes
import Useful.Server.ContentAddressing
import Useful.Server.PublishedBytes
import Useful.Server.Billing
import Useful.Server.BillingConvergence
import Useful.Server.BillingRedelivery
import Useful.Server.Documents
import Useful.Server.PublishLease
import Useful.Server.Unleased
import Useful.Server.Publication
import Useful.Server.PublishedStatus
import Useful.Server.Agreement
import Useful.Server.TokenScopes
import Useful.Server.TenantRequests
import Useful.Server.ReproResults
import Useful.Server.FailedRelease
import Useful.Server.NativeFlag
import Useful.Interop.LatestStable
import Useful.Client.Pinning
import Useful.Client.Search
import Useful.Client.SourceRefresh
import Useful.Client.SecureGet
import Useful.Client.SourceAccounts
import Useful.Client.LoginCallback
import Useful.Actions.DescriptorSchema
import Useful.Actions.Execution
import Useful.Cli.AppUpdate
import Useful.Cli.Storage
import Useful.Cli.Publish
import Useful.Cli.RootControl
import Useful.Procmon.ShownProcesses
import Useful.Procmon.SamplerThreads
import Useful.Office.ZipLayout
import Useful.AgentProfile.SavedProfile
import Useful.AgentProfile.NeverWidens
import Useful.ComputerUse.Contract
import Useful.ComputerUse.Controller
import Useful.Server.RateLimit
import Useful.Server.VersionOrder
import Useful.Client.MergedCatalog
import Useful.Recipes.PointerReferences
import Useful.Actions.QueryPages
import Useful.Actions.MigratedReceipts
import Useful.Actions.SchemaVerdicts
import Useful.Server.ZipContainer
import Useful.Server.ScannedPackages
import Useful.Utilities.Luhn
import Useful.Utilities.UnicodeEscape
import Useful.Utilities.Html
import Useful.Utilities.TextCodecs
import Useful.Tuf.Timestamp
import Useful.Media.ProgressReader
import Useful.Client.TokenStores
import Useful.Bootstrap.Channels
import Useful.Office.CsvRoundTrip
import Useful.Office.MarkdownRoundTrip
import Useful.Media.ClosedArchive
import Useful.AgentProfile.PublishedSchema
import Useful.ComputerUse.ReportedAddresses
import Useful.Plugins.UnpackBudget
import Useful.Client.SeekThrottle
import Useful.Client.PluginBridge
import Useful.Client.BridgePromises
