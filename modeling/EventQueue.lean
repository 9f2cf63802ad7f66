import EventQueue.Bridge.Coverage
import EventQueue.Bridge.EventFrames
import EventQueue.Bridge.Exclusivity
import EventQueue.Bridge.Framing
import EventQueue.Bridge.Link
import EventQueue.Bridge.Matching
import EventQueue.Bridge.Mirror
import EventQueue.Bridge.OrderFlow
import EventQueue.Bridge.Redelivery
import EventQueue.Bridge.Relaying
import EventQueue.Bridge.Resubscribing
import EventQueue.Bridge.RoundTrip
import EventQueue.Bridge.Serving
import EventQueue.Bridge.SubscribePayload
import EventQueue.Bridge.System
import EventQueue.Bridge.Wire
import EventQueue.Broker.AckEngine
import EventQueue.Broker.Acknowledged
import EventQueue.Broker.Amplification
import EventQueue.Broker.AtLeastOnce
import EventQueue.Broker.AuditEvent
import EventQueue.Broker.CircularWait
import EventQueue.Broker.CrashRecovery
import EventQueue.Broker.DeadLetters
import EventQueue.Broker.DeadlineScan
import EventQueue.Broker.DeliveryFates
import EventQueue.Broker.Durability
import EventQueue.Broker.Fairness
import EventQueue.Broker.Fanout
import EventQueue.Broker.Flow
import EventQueue.Broker.FlushOrder
import EventQueue.Broker.IndependentDeliveries
import EventQueue.Broker.Ledger
import EventQueue.Broker.Lineage
import EventQueue.Broker.Log
import EventQueue.Broker.Main
import EventQueue.Broker.Membership
import EventQueue.Broker.Message
import EventQueue.Broker.MessageIdentity
import EventQueue.Broker.Protocol
import EventQueue.Broker.PublisherOrder
import EventQueue.Broker.QueueMonitor
import EventQueue.Broker.Registration
import EventQueue.Broker.Replay
import EventQueue.Broker.RetryBudget
import EventQueue.Broker.Revival
import EventQueue.Broker.SafeQueue
import EventQueue.Broker.SendTo
import EventQueue.Broker.Standstill
import EventQueue.Broker.Startup
import EventQueue.Broker.Step
import EventQueue.Broker.Subscriptions
import EventQueue.Broker.TcpServer
import EventQueue.Broker.TopicRouter
import EventQueue.Broker.TornLog
import EventQueue.Broker.WalWriter
import EventQueue.Gateway.ClientInput
import EventQueue.Gateway.ClientOutput
import EventQueue.Gateway.ConnectionIsolation
import EventQueue.Gateway.Lifecycle
import EventQueue.Gateway.Outbound
import EventQueue.Gateway.Protocol
import EventQueue.Gateway.Ring
import EventQueue.Gateway.Sessions
import EventQueue.Gateway.TcpClient
import EventQueue.Gateway.WsServer
import EventQueue.Lib.AssocMap
import EventQueue.Lib.BigEndian
import EventQueue.Lib.Counting
import EventQueue.Lib.InsertionOrder
import EventQueue.Lib.JsNumber
import EventQueue.Lib.JsString
import EventQueue.Lib.JsValue
import EventQueue.Lib.Json
import EventQueue.Lib.JsonText
import EventQueue.Lib.Lifetime
import EventQueue.Lib.NumberText
import EventQueue.Lib.Reconnector
import EventQueue.Lib.RoundRobin
import EventQueue.Lib.StreamDecoder
import EventQueue.Lib.ToNumber
import EventQueue.Lib.Transition
import EventQueue.Services.GatewayClient
import EventQueue.Services.Order
import EventQueue.Services.Payment
