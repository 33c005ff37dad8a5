import OnosApps.Bridge.Relearning
import OnosApps.Bridge.Topology
import OnosApps.Bridge.Network
import OnosApps.Bridge.Delivery
import OnosApps.ProxyArp.Process
import OnosApps.ProxyArp.Emissions
import OnosApps.Onos.Intent
import OnosApps.UnicastDhcp.Process
import OnosApps.UnicastDhcp.Connected
import OnosApps.VRouter.Handlers
import OnosApps.VRouter.Submissions
import OnosApps.VRouter.RightHost
import OnosApps.VRouter.Conflicts
import OnosApps.VRouter.Transit
import OnosApps.Runs.Attempts
import OnosApps.UnicastDhcp.Clients
import OnosApps.VRouter.Attempts
import OnosApps.VRouter.Reconfiguration
import OnosApps.VRouter.PacketCall
import OnosApps.VRouter.RoundTrip
import OnosApps.Sets.LeaveOneOut
import OnosApps.VRouter.TransitIngress
import OnosApps.VRouter.TransitLoop
import OnosApps.VRouter.BgpSessions
import OnosApps.VRouter.PacketOrder
import OnosApps.VRouter.NextHop
import OnosApps.Onos.IntentService
import OnosApps.UnicastDhcp.PacketOut
import OnosApps.VRouter.Deactivate
import OnosApps.VRouter.Returns
import OnosApps.Runs.Count
import OnosApps.Bridge.Visits
import OnosApps.Bridge.NetworkCache
import OnosApps.Bridge.Conversation
import OnosApps.Bridge.Recovery
import OnosApps.ProxyArp.Resolution
import OnosApps.Reactive.Fabric
import OnosApps.VRouter.Forwarding
import OnosApps.UnicastDhcp.Exchange
import OnosApps.UnicastDhcp.Concurrent
import OnosApps.VRouter.Service
import OnosApps.Bridge.Lifecycle
import OnosApps.Maps.NestedMap
import OnosApps.Bridge.Concurrent
import OnosApps.ProxyArp.Concurrent
