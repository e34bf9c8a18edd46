import ProxyPlatform.Base.Run
import ProxyPlatform.Base.Storage
import ProxyPlatform.Base.Linked
import ProxyPlatform.Base.Stamped
import ProxyPlatform.Base.Filed
import ProxyPlatform.Base.Pairing
import ProxyPlatform.Base.RoundRobin
import ProxyPlatform.Base.Bytes
import ProxyPlatform.Base.Lines
import ProxyPlatform.Base.Codec
import ProxyPlatform.Base.Hex
import ProxyPlatform.Base.Decimal
import ProxyPlatform.Base.Blocks
import ProxyPlatform.Base.Since
import ProxyPlatform.Base.Slots
import ProxyPlatform.Base.Md5
import ProxyPlatform.Base.Table
import ProxyPlatform.Base.Queue
import ProxyPlatform.Base.Balance
import ProxyPlatform.Base.Project
import ProxyPlatform.Common
import ProxyPlatform.Future
import ProxyPlatform.Future.Calls
import ProxyPlatform.Future.Handles
import ProxyPlatform.Auth.Basic
import ProxyPlatform.Auth.Reference
import ProxyPlatform.Auth.Service
import ProxyPlatform.Auth.Run
import ProxyPlatform.Auth.Request
import ProxyPlatform.Auth.Block
import ProxyPlatform.Auth.Limit
import ProxyPlatform.Auth.Exhaustion
import ProxyPlatform.Auth.Load
import ProxyPlatform.Auth.Reload
import ProxyPlatform.Protocol.Audit
import ProxyPlatform.Proxy.Basic
import ProxyPlatform.Proxy.Http
import ProxyPlatform.Proxy.Header
import ProxyPlatform.Proxy.Socks
import ProxyPlatform.Proxy.Service
import ProxyPlatform.Proxy.Handshake
import ProxyPlatform.Proxy.Effect
import ProxyPlatform.Proxy.Paired
import ProxyPlatform.Proxy.Settled
import ProxyPlatform.Proxy.Turn
import ProxyPlatform.Proxy.Step
import ProxyPlatform.Proxy.Channels
import ProxyPlatform.Proxy.Ledger
import ProxyPlatform.Proxy.Lists
import ProxyPlatform.Proxy.Futures
import ProxyPlatform.Proxy.Rounds
import ProxyPlatform.Proxy.Timers
import ProxyPlatform.Proxy.Motions
import ProxyPlatform.Proxy.Granted
import ProxyPlatform.Proxy.Deadline
import ProxyPlatform.Proxy.Tunnels
import ProxyPlatform.Proxy.Upload
import ProxyPlatform.Proxy.Body
import ProxyPlatform.Proxy.Credential
import ProxyPlatform.Proxy.Segments
import ProxyPlatform.Proxy.Segmentation
import ProxyPlatform.Proxy.HeaderFilter
import ProxyPlatform.Proxy.Filtering
import ProxyPlatform.Proxy.BasicCredential
import ProxyPlatform.Proxy.RequestLine
import ProxyPlatform.Proxy.Negotiation
import ProxyPlatform.Proxy.Datagrams
import ProxyPlatform.Proxy.Supply
import ProxyPlatform.Proxy.Greeted
import ProxyPlatform.Proxy.Relayed
import ProxyPlatform.Proxy.Promised
import ProxyPlatform.Audit.Service
import ProxyPlatform.Audit.Usage
import ProxyPlatform.Dns.Basic
import ProxyPlatform.Dns.Lists
import ProxyPlatform.Dns.Calls
import ProxyPlatform.Dns.Run
import ProxyPlatform.Dns.Expiry
import ProxyPlatform.Dns.Coalescing
import ProxyPlatform.Dns.Rotation
import ProxyPlatform.Relay.Basic
import ProxyPlatform.Relay.Turn
import ProxyPlatform.Relay.Step
import ProxyPlatform.Relay.Lists
import ProxyPlatform.Relay.Holders
import ProxyPlatform.Relay.Futures
import ProxyPlatform.Relay.Idle
import ProxyPlatform.Relay.Capabilities
import ProxyPlatform.Relay.Posts
import ProxyPlatform.LocalDevice.Basic
import ProxyPlatform.LocalDevice.Kill
import ProxyPlatform.LocalDevice.Pipeline
import ProxyPlatform.DeviceEntry.Basic
import ProxyPlatform.DeviceEntry.Offer
import ProxyPlatform.DeviceEntry.Agreement
import ProxyPlatform.DeviceEntry.Rotation
import ProxyPlatform.DeviceEntry.AddressKey
import ProxyPlatform.DeviceEntry.Sources
import ProxyPlatform.ServerList.Message
import ProxyPlatform.ServerList.Checksum
import ProxyPlatform.Protocol.Control
import ProxyPlatform.Protocol.SignedPack
import ProxyPlatform.Protocol.Command
import ProxyPlatform.ServerList.Downloader
import ProxyPlatform.ServerList.Refresh
import ProxyPlatform.ServerList.Server
import ProxyPlatform.ServerList.Versions
import ProxyPlatform.ServerList.Rollback
import ProxyPlatform.ServerList.Network
import ProxyPlatform.ServerList.Moments
import ProxyPlatform.ServerList.Convergence
import ProxyPlatform.Audit.Servers
import ProxyPlatform.Audit.Capacity
import ProxyPlatform.ServerList.TcpClient
import ProxyPlatform.TargetCollector.Reporter
import ProxyPlatform.Component.RequestMapping
import ProxyPlatform.Util.RdKfkProducer
import ProxyPlatform.Wiring.Basic
import ProxyPlatform.Wiring.Forwarding
import ProxyPlatform.Wiring.Tunnel
import ProxyPlatform.Wiring.Halves
import ProxyPlatform.Wiring.Mirror
import ProxyPlatform.Wiring.Joint
import ProxyPlatform.Wiring.Deadline
import ProxyPlatform.Wiring.Reply
import ProxyPlatform.Wiring.Silence
import ProxyPlatform.Wiring.Carry
import ProxyPlatform.Wiring.Uploads
import ProxyPlatform.Wiring.Downloads
import ProxyPlatform.Wiring.Discards
import ProxyPlatform.Wiring.Release
import ProxyPlatform.Wiring.Order
import ProxyPlatform.RelayDispatch.Packet
import ProxyPlatform.RelayDispatch.Master
import ProxyPlatform.RelayDispatch.Turns
import ProxyPlatform.RelayDispatch.Network
import ProxyPlatform.RelayDispatch.Origin
import ProxyPlatform.RelayDispatch.Wires
import ProxyPlatform.RelayDispatch.Delivery
