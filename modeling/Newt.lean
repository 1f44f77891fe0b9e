import Newt.SubnetPolicy
import Newt.IncomingSafety
import Newt.NatRelease
import Newt.NatDial
import Newt.NatTranslation
import Newt.NatResource
import Newt.HandlerRules
import Newt.PingSafety
import Newt.SharedBindRefs
import Newt.ProxyManagerSafety
import Newt.TargetSyncResult
import Newt.BlockedFlagSafety
import Newt.HolePunchNodes
import Newt.TunnelResources
import Newt.RemoteSubnetsSafety
import Newt.ClientCerts
import Newt.ClientPeersSafety
import Newt.ClientBandwidthSafety
import Newt.ClientResources
import Newt.ConfigVersion
import Newt.AccessConsolidation
import Newt.AccessUdp
import Newt.ConfigReload
import Newt.LogOverflow
import Newt.AddressRewrite
import Newt.FragmentRewrite
import Newt.IcmpReply
import Newt.BindEndpoint
import Newt.ChanListener
import Newt.PingReplies
import Newt.SenderStops
import Newt.SharedBindWait
import Newt.TunClose
import Newt.WebsocketBlame
import Newt.WebsocketNil
import Newt.PingCheck
import Newt.PamConnection
import Newt.HealthCheckStatus
import Newt.GatewayTokens
import Newt.ClientPort
import Newt.ConfigFilePath
import Newt.SelfUpdate
import Newt.ExitNodes
import Newt.Principals
import Newt.DockerEvents
