import TgWsProxy.Foundation.Keystream
import TgWsProxy.Foundation.Transition
import TgWsProxy.Foundation.Effect
import TgWsProxy.Foundation.Layer
import TgWsProxy.Foundation.Reservation
import TgWsProxy.Foundation.Voucher
import TgWsProxy.Foundation.Custody
import TgWsProxy.Foundation.Concurrent
import TgWsProxy.Foundation.Machine
import TgWsProxy.Foundation.Hex
import TgWsProxy.Foundation.Guard
import TgWsProxy.Foundation.Stream
import TgWsProxy.Foundation.Handler
import TgWsProxy.Foundation.Text
import TgWsProxy.Foundation.Window
import TgWsProxy.Foundation.Stateful
import TgWsProxy.Foundation.Transducer
import TgWsProxy.Foundation.Attempt
import TgWsProxy.Crypto.Primitives
import TgWsProxy.Crypto.Handshake
import TgWsProxy.Crypto.Agreement
import TgWsProxy.Crypto.RelayInit
import TgWsProxy.Config.Model
import TgWsProxy.Config.LinkSecret
import TgWsProxy.Config.Startup
import TgWsProxy.Config.Upstream
import TgWsProxy.Splitter.Grammar
import TgWsProxy.Splitter.Model
import TgWsProxy.Splitter.Turns
import TgWsProxy.Splitter.Refinement
import TgWsProxy.Splitter.Chunking
import TgWsProxy.Splitter.Conservation
import TgWsProxy.Splitter.Flushing
import TgWsProxy.Splitter.Progress
import TgWsProxy.Bridge.Model
import TgWsProxy.Bridge.Pump
import TgWsProxy.Bridge.Transparency
import TgWsProxy.Cloudflare.Attempts
import TgWsProxy.Pool.Direct
import TgWsProxy.Pool.Capacity
import TgWsProxy.Pool.Cloudflare
import TgWsProxy.Pool.CfLedger
import TgWsProxy.Pool.CfOrigin
import TgWsProxy.Pool.CfRecords
import TgWsProxy.Pool.SingleFlight
import TgWsProxy.Pool.Vouchers
import TgWsProxy.Pool.Quota
import TgWsProxy.Pool.Ownership
import TgWsProxy.Pool.Replenish
import TgWsProxy.Pool.Budget
import TgWsProxy.Pool.Balance
import TgWsProxy.Pool.Settings
import TgWsProxy.Routing.Model
import TgWsProxy.Routing.Events
import TgWsProxy.Routing.Rungs
import TgWsProxy.Routing.Ladder
import TgWsProxy.Routing.DefaultLadder
import TgWsProxy.Routing.PinnedLadder
import TgWsProxy.Routing.Traversal
import TgWsProxy.Routing.Blacklist
import TgWsProxy.Routing.Schedule
import TgWsProxy.Outbound.NoProxy
import TgWsProxy.Outbound.Sources
import TgWsProxy.Outbound.Validation
import TgWsProxy.Outbound.Matching
import TgWsProxy.Outbound.Connector
import TgWsProxy.Transport.Model
import TgWsProxy.Transport.EdgeWalk
import TgWsProxy.Transport.Stack
import TgWsProxy.Transport.Requests
import TgWsProxy.Transport.Policy
import TgWsProxy.Transport.CooldownMap
import TgWsProxy.Transport.Warmup
import TgWsProxy.FakeTls.Records
import TgWsProxy.FakeTls.Framing
import TgWsProxy.FakeTls.ClientHello
import TgWsProxy.FakeTls.HelloBody
import TgWsProxy.FakeTls.HelloFormat
import TgWsProxy.FakeTls.HelloRoundTrip
import TgWsProxy.FakeTls.ServerHello
import TgWsProxy.Client.Model
import TgWsProxy.Client.Reassembly
import TgWsProxy.Client.Admission
import TgWsProxy.Client.Request
import TgWsProxy.Relay.Framing
import TgWsProxy.Relay.Flow
import TgWsProxy.Relay.Model
import TgWsProxy.Relay.Chain
import TgWsProxy.Relay.Agreement
import TgWsProxy.Session.Model
import TgWsProxy.Session.Teardown
import TgWsProxy.Session.Bridges
import TgWsProxy.Session.EndToEnd
import TgWsProxy.Check.Model
import TgWsProxy.Check.Verdict
import TgWsProxy.Check.Listener
import TgWsProxy.DefaultDomains.Decode
import TgWsProxy.DefaultDomains.Http
import TgWsProxy.DefaultDomains.Safety
import TgWsProxy.DefaultDomains.Chunked
import TgWsProxy.DefaultDomains.Published
import TgWsProxy.Server.Limits
import TgWsProxy.Server.Accept
import TgWsProxy.Server.Startup
import TgWsProxy.Android.Model
import TgWsProxy.Android.Lifecycle
import TgWsProxy.Android.Forwarding
import TgWsProxy.Cli.Split
import TgWsProxy.Cli.Quoting
import TgWsProxy.Cli.Line
