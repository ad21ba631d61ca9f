import Stuart.Lib.PlainMap
import Stuart.Lib.Levels
import Stuart.Lib.RefCount
import Stuart.Lib.PrefixTree
import Stuart.Lib.Newest
import Stuart.Lib.Overlay
import Stuart.Utils.StringUtils
import Stuart.Utils.TopicUtil
import Stuart.Utils.FilterGrammar
import Stuart.Functions.TopicMatchFunction
import Stuart.Caches.RouterCache
import Stuart.Caches.RouterTrie
import Stuart.Caches.RouterMatch
import Stuart.Caches.Routing
import Stuart.Caches.RetainCache
import Stuart.Lib.Runs
import Stuart.Lib.Turns
import Stuart.Ext.Collections
import Stuart.Entities.MqttMessage
import Stuart.Sessions.SessionWrapper
import Stuart.Sessions.Conservation
import Stuart.Sessions.ExactlyOnce
import Stuart.Caches.RouterClient
import Stuart.Caches.ClusteredRoutes
import Stuart.Sessions.SessionFrame
import Stuart.Services.CacheService
import Stuart.Caches.QueueCache
import Stuart.Services.SessionService
import Stuart.Services.ClientFrame
import Stuart.Services.Lifecycle
import Stuart.Services.Reconnect
import Stuart.Services.Takeover
import Stuart.Services.SessionCleanup
import Stuart.Services.NodeCleanup
import Stuart.Services.ClusterTakeover
import Stuart.Caches.AclCache
import Stuart.Caches.AclStore
import Stuart.Utils.AuthUtil
import Stuart.Utils.StoredAuthority
import Stuart.Services.RuleBackends
import Stuart.Services.BackendCallbacks
import Stuart.Services.BackendAgreement
import Stuart.Services.LocalAuthService
import Stuart.Caches.WillCache
import Stuart.Verticles.MqttVerticle
import Stuart.Verticles.InboundQos2
import Stuart.Verticles.Connections
import Stuart.Verticles.ConnectionLimit
import Stuart.Verticles.Forwarding
import Stuart.Verticles.RouterAccess
import Stuart.Verticles.PacketTasks
import Stuart.Verticles.PacketOrder
import Stuart.Verticles.Access
import Stuart.Functions.SampleTopics
import Stuart.Verticles.WildcardGrant
import Stuart.Verticles.Wills
import Stuart.Services.AwaitFrame
import Stuart.Verticles.Authorised
import Stuart.Sessions.Freshness
import Stuart.Lib.Pool
import Stuart.Sessions.Calls
import Stuart.Sessions.WakeUp
import Stuart.Sessions.WireIds
import Stuart.Sessions.Window
import Stuart.Sessions.Alone
import Stuart.Sessions.FirstSending
import Stuart.Sessions.Arrival
import Stuart.Ext.BoundedQueues
import Stuart.Ext.IgniteStores
import Stuart.Ext.AwaitSize
import Stuart.Services.OfflinePublish
import Stuart.Sessions.Dequeue
import Stuart.Ext.ExpiringMap
import Stuart.Sessions.Timers
import Stuart.Sessions.MethodRule
import Stuart.Verticles.Deliveries
import Stuart.Verticles.HeaderFlags
import Stuart.Verticles.RetryCount
import Stuart.Verticles.RetainedStore
import Stuart.Services.Openings
import Stuart.Verticles.SubAck
import Stuart.Verticles.Sizes
import Stuart.Verticles.Gauges
import Stuart.Lib.Throwing
import Stuart.Sessions.Flags
import Stuart.Lib.Bytes
import Stuart.Entities.MqttMessageTupleCodec
import Stuart.Verticles.Operations
import Stuart.Verticles.Handover
import Stuart.Verticles.Restart
import Stuart.Lib.Parts
import Stuart.Verticles.FanOut
import Stuart.Lib.History
import Stuart.Caches.AccountCache
import Stuart.Verticles.WebAdmin
import Stuart.Verticles.Admission
import Stuart.Ext.ExpirerTasks
import Stuart.Lib.Rest
import Stuart.Lib.Simulation
import Stuart.Sessions.Settling
import Stuart.Services.Gather
import Stuart.Services.Kick
import Stuart.Verticles.ClusteredVerticle
import Stuart.Verticles.ClusteredFanOut
