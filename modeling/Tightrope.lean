import Tightrope.Library.MachineWords
import Tightrope.Library.Bytes
import Tightrope.Library.FlatMap
import Tightrope.Library.KeyedTable
import Tightrope.Library.Delivery
import Tightrope.Library.Runs
import Tightrope.Library.Interleaving
import Tightrope.Library.WireCodec
import Tightrope.Library.Selection
import Tightrope.Library.BigEndian
import Tightrope.Library.Threads
import Tightrope.Sync.Hlc
import Tightrope.Sync.Crdt.PnCounter
import Tightrope.Sync.Crdt.LwwRegister
import Tightrope.Sync.Crdt.OrSet
import Tightrope.Sync.Crdt.CrdtSync
import Tightrope.Sync.Crdt.ObservedRemove
import Tightrope.Sync.Crdt.CrdtStore
import Tightrope.Sync.Checksum
import Tightrope.Sync.PersistentJournal
import Tightrope.Sync.JournalRefinement
import Tightrope.Sync.AutoCompaction
import Tightrope.Sync.ConflictResolver
import Tightrope.Sync.SyncProtocol
import Tightrope.Sync.SyncEngine
import Tightrope.Sync.RowVerification
import Tightrope.Sync.Replication
import Tightrope.Sync.Handshake
import Tightrope.Sync.PeerIngress
import Tightrope.Sync.WireIngress
import Tightrope.Sync.Transport.RpcChannel
import Tightrope.Sync.Transport.RpcIngress
import Tightrope.Sync.Transport.ReplicationIngress
import Tightrope.Sync.Consensus.Membership
import Tightrope.Sync.Consensus.LogHistory
import Tightrope.Sync.Consensus.LogTransfer
import Tightrope.Sync.Consensus.RaftStateMachine
import Tightrope.Sync.InflightBudget
import Tightrope.Sync.CdcTriggers
import Tightrope.Core.HostPort
import Tightrope.Core.Ascii
import Tightrope.P2p.Dht.NodeId
import Tightrope.P2p.Dht.Message
import Tightrope.P2p.Dht.RoutingTable
import Tightrope.Proxy.Headers
import Tightrope.Proxy.Session.HttpBridge
import Tightrope.Db.ResponseContinuity
import Tightrope.Proxy.Session.BridgeIsolation
import Tightrope.Proxy.Openai.UpstreamHeaders
import Tightrope.Proxy.WebsocketBridgeKey
import Tightrope.Proxy.PersistentBridge
import Tightrope.Server.ApiKeyFilter
import Tightrope.Server.ServerRoutes
import Tightrope.Server.ModelPolicy
import Tightrope.Server.MessageOrder
import Tightrope.Proxy.Openai.NormalizedModel
import Tightrope.Proxy.WebsocketPayload
import Tightrope.Auth.Crypto.TokenStore
import Tightrope.Auth.Dashboard.DashboardLogin
import Tightrope.Auth.Dashboard.TotpAuth
import Tightrope.Library.RowTable
import Tightrope.Db.Accounts
import Tightrope.Auth.Oauth.TokenRefresh
import Tightrope.Auth.Oauth.RefreshCall
import Tightrope.Proxy.Session.AccountMarks
import Tightrope.Auth.Oauth.StatusRace
import Tightrope.Core.Json
import Tightrope.Core.JsonText
import Tightrope.Db.SettingsRepo
import Tightrope.Library.ArrivalOrder
import Tightrope.Library.Fallible
import Tightrope.Library.NumberedRows
import Tightrope.Library.Routing
import Tightrope.Proxy.Chat.ToolCalls
import Tightrope.Proxy.Chat.CallStream
import Tightrope.Proxy.Openai.PayloadText
import Tightrope.Proxy.Chat.ChatEvents
import Tightrope.Proxy.Chat.Conversion
import Tightrope.Proxy.Chat.Reassembly
import Tightrope.Proxy.Openai.PayloadNormalizer
import Tightrope.Proxy.Session.AccountRouting
import Tightrope.Proxy.Session.MarkedAccounts
import Tightrope.Server.WebsocketMessages
import Tightrope.Server.SettingsController
import Tightrope.Server.AuthController
import Tightrope.Server.PassphraseChange
import Tightrope.Server.TokenRefreshScheduler
import Tightrope.Server.RefreshTarget
import Tightrope.Server.SecondFactor
import Tightrope.Server.SettingsUpdates
import Tightrope.Server.TotpReplay
import Tightrope.Server.UsageRefresh
import Tightrope.Sync.Consensus.RaftStorage
import Tightrope.Sync.Consensus.LogEntries
import Tightrope.Sync.Consensus.RaftLog
import Tightrope.Proxy.Chat.ChatCompletion
import Tightrope.Proxy.Chat.ToolCallStream
import Tightrope.Proxy.Chat.ChatAgreement
import Tightrope.Core.IpAddress
import Tightrope.Server.FirewallFilter
import Tightrope.Proxy.SseEvents
import Tightrope.Proxy.Openai.HeaderHygiene
import Tightrope.Proxy.Session.LockPool
import Tightrope.Proxy.Session.ContinuityPurge
import Tightrope.Db.ApiKeyReservations
import Tightrope.Server.UsageReservation
import Tightrope.Sync.Discovery.PeerManager
import Tightrope.Bridge.ClusterConfig
import Tightrope.Bridge.ClusterCommands
import Tightrope.Bridge.RejectedCommands
import Tightrope.Bridge.ClusterPeers
import Tightrope.Library.Loops
import Tightrope.Bridge.LivePeers
import Tightrope.Sync.Transport.OpeningFrame
import Tightrope.Bridge.ReplicationServer
import Tightrope.Bridge.PeerStanding
import Tightrope.Sync.CatchUp
import Tightrope.Sync.Consensus.AppendEntries
import Tightrope.Bridge.ClusterInvariants
import Tightrope.Bridge.PeerEndpoints
import Tightrope.Sync.Discovery.Mdns
import Tightrope.Sync.Discovery.Announcements
import Tightrope.Auth.Oauth.OauthService
import Tightrope.Auth.Oauth.AccountLogins
import Tightrope.Auth.Oauth.CallbackUrl
import Tightrope.Auth.Oauth.FlowIsolation
import Tightrope.Auth.Oauth.SingleUse
import Tightrope.Library.Directory
import Tightrope.Db.SqlitePool
import Tightrope.Db.EncryptedMigration
import Tightrope.Library.Paging
import Tightrope.Sync.JournalPaging
import Tightrope.Library.Separators
import Tightrope.Sync.ChecksumSeparation
import Tightrope.Sync.DecodeMemory
import Tightrope.P2p.Dht.Eviction
import Tightrope.Library.Retention
import Tightrope.P2p.Dht.ValueStore
import Tightrope.Library.CreditRounds
import Tightrope.Balancer.WeightedRoundRobin
import Tightrope.Library.UnicodeText
import Tightrope.Core.SoundJson
import Tightrope.Library.JsonGrammar
import Tightrope.Proxy.Openai.RequestSanitizing
import Tightrope.Proxy.Openai.InputNormalForm
import Tightrope.Proxy.Openai.NormalForm
import Tightrope.Proxy.Openai.Renormalization
import Tightrope.Auth.ApiKeys.LimitEnforcer
import Tightrope.Db.ApiKeyRepo
import Tightrope.Server.KeysController
import Tightrope.Server.KeyMutations
import Tightrope.Core.CivilTime
import Tightrope.Server.ApiKeyExpiry
import Tightrope.Proxy.Utf16Frames
import Tightrope.Server.PasswordLogin
import Tightrope.Auth.Crypto.StoredTokens
import Tightrope.Proxy.ErrorPolicy
import Tightrope.Proxy.CodexHeaders
import Tightrope.Proxy.RetryBudget
import Tightrope.Proxy.TerminalEvents
import Tightrope.Library.Base64
import Tightrope.Proxy.Chat.ChatRequest
import Tightrope.Proxy.Chat.ImageLimit
import Tightrope.Proxy.Chat.SoundChatRequest
import Tightrope.Proxy.Openai.CarriedFields
import Tightrope.Proxy.Chat.Conversation
import Tightrope.Library.StreamDecoding
import Tightrope.Server.Decompression
import Tightrope.Server.RequestDecompression
import Tightrope.Library.BitGroups
import Tightrope.Db.ContinuityLookup
import Tightrope.Library.TokenBucket
import Tightrope.Sync.PeerRateLimit
import Tightrope.Server.TokenImport
import Tightrope.Bridge.PeerChanges
import Tightrope.Bridge.SiteIdReconciliation
import Tightrope.App.CodexSetup
import Tightrope.Library.Headings
import Tightrope.App.TomlTables
import Tightrope.App.ConfigLines
import Tightrope.App.ConfigInspection
import Tightrope.App.ConfigEdits
import Tightrope.App.EditedConfig
import Tightrope.App.ConservativeEdits
import Tightrope.Server.RoutingPins
import Tightrope.Db.StickySessions
import Tightrope.Proxy.Session.StickyAffinity
import Tightrope.P2p.Dht.NodeIdHex
import Tightrope.Server.ExecutorRuns
import Tightrope.Db.FirewallRepo
