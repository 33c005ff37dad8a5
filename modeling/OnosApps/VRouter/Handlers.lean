import OnosApps.Onos.Config
import OnosApps.Onos.Intent
import OnosApps.Runs.Handler

/-!
# The virtual router: the configuration listener and the packet processor

The handlers of the virtual router. The listener copies the configuration into the fields of
the application, one after the other, and connects the BGP speaker with its peers. The
processor handles the IPv4 packets addressed to the router: the first one that finds routes
builds the transit intents, and each one then gets the intents of its own flow, towards the
next hop of its destination or towards the host it is addressed to.

## Main definitions

* `Network`: what the interface, route and host services of ONOS answer
* `State`: the fields of the application, and the intents submitted
* `QuaggaConfigListener.event`, `process`: the two handlers
* `Event`, `next`: one event of a run; an exception abandons the event
* `deployed`, `deployedConfig`, `deployedNetwork`: the configuration and the topology of the
  repository
-/

namespace VRouter

open Onos Runs

/-! ## What the handlers read -/

/-- An address of an interface, with its subnet. -/
structure InterfaceIpAddress where
  ipAddress : Ip4Address
  subnetAddress : IpPrefix
deriving DecidableEq

/-- A configured interface. -/
structure Interface where
  connectPoint : ConnectPoint
  ipAddressesList : List InterfaceIpAddress
deriving DecidableEq

/-- A route whose next hop is resolved. -/
structure ResolvedRoute where
  nextHop : Ip4Address
  nextHopMac : MacAddress
deriving DecidableEq

/-- A route of a table. There is no best route while the next hop is not resolved. -/
structure RouteInfo where
  ipPrefix : IpPrefix
  bestRoute : Option ResolvedRoute
deriving DecidableEq

/-- A host known to the host service. -/
structure Host where
  mac : MacAddress
  ipAddresses : List Ip4Address
  location : ConnectPoint
deriving DecidableEq

/-- What the interface service, the route service and the host service answer while an event is
handled. -/
structure Network where
  getMatchingInterface : Ip4Address → Option Interface
  routeTables : List (List RouteInfo)
  hosts : List Host

namespace Network

/-- The routes of all tables, in the order in which they are enumerated. -/
def routes (network : Network) : List RouteInfo := network.routeTables.flatten

def getHostsByIp (network : Network) (ip : Ip4Address) : List Host :=
  network.hosts.filter (ip ∈ ·.ipAddresses)

end Network

/-- A configuration document: its text fields and its lists of texts. Nothing is checked about
it, so that any of them can be missing. -/
structure QuaggaConfig where
  get : String → Option String
  getList : String → Option (List String)

/-- The parts of ONOS the handlers call: the parsers, which throw on what they cannot read, and
the checks of the intent builders. -/
structure Services where
  appId : ApplicationId
  deviceConnectPoint : String → Option ConnectPoint
  macAddress : String → Option MacAddress
  ip4Address : String → Option Ip4Address
  checks : IntentChecks

/-! ## The state -/

/-- The place in the source from which an intent is submitted. -/
inductive IntentKind where
  | bgpOut
  | bgpIn
  | transit
  | sdnExternalForward
  | sdnExternalReverse
  | externalSdnForward
  | externalSdnReverse
deriving DecidableEq, Repr

/-- A submitted intent. -/
structure Submission where
  kind : IntentKind
  intent : Intent
deriving DecidableEq

/-- The fields of the application, and the intents it has submitted so far. A field is `none`
until it is assigned. -/
structure State where
  quaggaCp : Option ConnectPoint := none
  quaggaMac : Option MacAddress := none
  virtualIp : Option Ip4Address := none
  virtualMac : Option MacAddress := none
  peersIp : Option (List Ip4Address) := none
  hasBuildTransitIntents : Bool := false
  submitted : List Submission := []

/-- The state after `activate`. -/
def State.init : State := {}

/-- The code of a handler: it reads and writes the state, and may throw. -/
abbrev Handler := EStateM JavaException State

section Handlers

variable (services : Services)

/-! ## The intent builders -/

/-- The selector of all intents of the application. -/
def dstSelector (matchDstIp : IpPrefix) : TrafficSelector where
  ipDst := some matchDstIp
  ethType := some Ethernet.TYPE_IPV4

theorem matches_dstSelector {p : IpPrefix} {eth : Ethernet} :
    (dstSelector p).matches eth = true ↔
      ∃ ipv4Pkt, eth.payload = .ipv4 ipv4Pkt ∧ p.contains ipv4Pkt.destinationAddress := by
  cases hp : eth.payload with
  | ipv4 ipv4Pkt =>
    simp [TrafficSelector.matches, dstSelector, Ethernet.getEtherType, Ethernet.ipv4?, hp]
  | arp arp => simp [TrafficSelector.matches, dstSelector, Ethernet.ipv4?, hp]
  | other t => simp [TrafficSelector.matches, dstSelector, Ethernet.ipv4?, hp]

def bgpIntent (ingressPoint egressPoint : ConnectPoint) (matchDstIp : IpPrefix) :
    PointToPointIntent where
  appId := services.appId
  selector := dstSelector matchDstIp
  treatment := { output := some (.port egressPoint.port) }
  filteredIngressPoint := ingressPoint
  filteredEgressPoint := egressPoint
  priority := DEFAULT_INTENT_PRIORITY

/-- The treatment of the intents that rewrite the addresses of a frame. -/
def rewriting (egressPoint : ConnectPoint) (newSrcMac newDstMac : MacAddress) :
    TrafficTreatment where
  output := some (.port egressPoint.port)
  ethSrc := some newSrcMac
  ethDst := some newDstMac

def sdnExternalIntent (ingressPoint egressPoint : ConnectPoint) (matchDstIp : IpPrefix)
    (newSrcMac newDstMac : MacAddress) : PointToPointIntent where
  appId := services.appId
  selector := dstSelector matchDstIp
  treatment := rewriting egressPoint newSrcMac newDstMac
  filteredIngressPoint := ingressPoint
  filteredEgressPoint := egressPoint
  priority := DEFAULT_INTENT_PRIORITY

def transitIntent (ingressPoints : Finset ConnectPoint) (egressPoint : ConnectPoint)
    (matchDstIp : IpPrefix) (newSrcMac newDstMac : MacAddress) :
    MultiPointToSinglePointIntent where
  appId := services.appId
  selector := dstSelector matchDstIp
  treatment := rewriting egressPoint newSrcMac newDstMac
  filteredIngressPoints := ingressPoints
  filteredEgressPoint := egressPoint
  priority := DEFAULT_INTENT_PRIORITY

/-- `intentService.submit(intent)`. -/
def submit (kind : IntentKind) (intent : Intent) : Handler Unit :=
  modify fun s => { s with submitted := s.submitted ++ [⟨kind, intent⟩] }

/-- The builder of a point-to-point intent, and its submission. -/
def submitPointToPoint (kind : IntentKind) (intent : PointToPointIntent) : Handler Unit :=
  if services.checks.pointToPoint intent.filteredIngressPoint intent.filteredEgressPoint then
    submit kind (.pointToPoint intent)
  else throw .illegalArgument

/-- `buildBGPIntent`. -/
def buildBGPIntent (kind : IntentKind) (ingressPoint egressPoint : ConnectPoint)
    (matchDstIp : IpPrefix) : Handler Unit :=
  submitPointToPoint services kind (bgpIntent services ingressPoint egressPoint matchDstIp)

/-- `buildSDNExternalIntent`. The new source address is a field of the application, and the
treatment builder throws on `null`. -/
def buildSDNExternalIntent (kind : IntentKind) (ingressPoint egressPoint : ConnectPoint)
    (matchDstIp : IpPrefix) (newSrcMac : Option MacAddress) (newDstMac : MacAddress) :
    Handler Unit := do
  let newSrcMac ← orThrow .nullPointer newSrcMac
  submitPointToPoint services kind
    (sdnExternalIntent services ingressPoint egressPoint matchDstIp newSrcMac newDstMac)

/-- `buildTransitIntent`. -/
def buildTransitIntent (ingressPoints : Finset ConnectPoint) (egressPoint : ConnectPoint)
    (matchDstIp : IpPrefix) (newSrcMac : Option MacAddress) (newDstMac : MacAddress) :
    Handler Unit := do
  let newSrcMac ← orThrow .nullPointer newSrcMac
  if services.checks.multiPointToSinglePoint ingressPoints egressPoint then
    submit .transit (.multiPointToSinglePoint
      (transitIntent services ingressPoints egressPoint matchDstIp newSrcMac newDstMac))
  else throw .illegalArgument

/-! ## The configuration listener -/

/-- The body of the loop over the peers: the intents of the BGP session with one peer. -/
def connectPeer (network : Network) (quaggaCp : ConnectPoint) (peerIp : Ip4Address) :
    Handler Unit := do
  let intf ← orThrow .nullPointer (network.getMatchingInterface peerIp)
  -- outgoing eBGP
  buildBGPIntent services .bgpOut quaggaCp intf.connectPoint (IpPrefix.valueOf peerIp 24)
  -- incoming eBGP
  let address ← orThrow .indexOutOfBounds intf.ipAddressesList.head?
  buildBGPIntent services .bgpIn intf.connectPoint quaggaCp address.subnetAddress

namespace QuaggaConfig

variable (config : QuaggaConfig)

/-- `ConnectPoint.deviceConnectPoint(config.information("quagga"))`. -/
def quaggaCp : Option ConnectPoint := (config.get "quagga").bind services.deviceConnectPoint

/-- `MacAddress.valueOf(config.information("quagga-mac"))`. -/
def quaggaMac : Option MacAddress := (config.get "quagga-mac").bind services.macAddress

/-- `Ip4Address.valueOf(config.information("virtual-ip"))`. -/
def virtualIp : Option Ip4Address := (config.get "virtual-ip").bind services.ip4Address

/-- `MacAddress.valueOf(config.information("virtual-mac"))`. -/
def virtualMac : Option MacAddress := (config.get "virtual-mac").bind services.macAddress

/-- `config.getPeers("peers")`. -/
def peersIp : Option (List Ip4Address) :=
  (config.getList "peers").bind fun texts => texts.mapM services.ip4Address

end QuaggaConfig

/-- `QuaggaConfigListener.event`. Each field is assigned as soon as it is parsed. -/
def QuaggaConfigListener.event (network : Network) (e : NetworkConfigEvent QuaggaConfig) :
    Handler Unit :=
  match e.read with
  | none => pure ()
  | some config => do
    let quaggaCp ← orThrow .illegalArgument (config.quaggaCp services)
    modify fun s => { s with quaggaCp := some quaggaCp }
    let quaggaMac ← orThrow .illegalArgument (config.quaggaMac services)
    modify fun s => { s with quaggaMac := some quaggaMac }
    let virtualIp ← orThrow .illegalArgument (config.virtualIp services)
    modify fun s => { s with virtualIp := some virtualIp }
    let virtualMac ← orThrow .illegalArgument (config.virtualMac services)
    modify fun s => { s with virtualMac := some virtualMac }
    let peersIp ← orThrow .illegalArgument (config.peersIp services)
    modify fun s => { s with peersIp := some peersIp }
    peersIp.forM (connectPeer services network quaggaCp)

/-! ## The packet processor -/

/-- The locals `nextHopIp` and `nextHopMac` of `process`. -/
structure NextHop where
  nextHopIp : Ip4Address := Ip4Address.ZERO
  nextHopMac : MacAddress := MacAddress.ZERO
deriving DecidableEq

/-- The locals of the transit loop: the next hop of the last route, which the rest of `process`
goes on with, and the set of ingress points that all iterations share. -/
structure TransitLocals where
  nextHop : NextHop
  ingressPoints : Finset ConnectPoint

/-- The ingress points before the transit loop: the ports of the peers. -/
def peerPoints (network : Network) (peersIp : List Ip4Address) : Handler (Finset ConnectPoint) :=
  peersIp.foldlM (fun points peerIp => do
    let intf ← orThrow .nullPointer (network.getMatchingInterface peerIp)
    pure (insert intf.connectPoint points)) ∅

/-- The body of the transit loop. The flag is set before anything can throw, and the egress
point is put into the shared set whether it was there or not. -/
def transitRoute (network : Network) (quaggaMac : Option MacAddress) (locals : TransitLocals)
    (info : RouteInfo) : Handler TransitLocals := do
  modify fun s => { s with hasBuildTransitIntents := true }
  let route ← orThrow .noSuchElement info.bestRoute
  let intf ← orThrow .nullPointer (network.getMatchingInterface route.nextHop)
  let egressPoint := intf.connectPoint
  let ingressPoints := locals.ingressPoints.erase egressPoint
  buildTransitIntent services ingressPoints egressPoint info.ipPrefix quaggaMac route.nextHopMac
  pure ⟨⟨route.nextHop, route.nextHopMac⟩, insert egressPoint ingressPoints⟩

/-- The transit block of `process`, when the transit intents are not marked as built. -/
def buildTransitIntents (network : Network) (quaggaMac : Option MacAddress)
    (peersIp : Option (List Ip4Address)) : Handler NextHop := do
  let peersIp ← orThrow .nullPointer peersIp
  let ingressPoints ← peerPoints network peersIp
  let locals ← network.routeTables.foldlM
    (fun locals table => table.foldlM (transitRoute services network quaggaMac) locals)
    ⟨{}, ingressPoints⟩
  pure locals.nextHop

/-- The transit block of `process`. -/
def transitTraffic (network : Network) (s : State) : Handler NextHop :=
  if s.hasBuildTransitIntents then pure {}
  else buildTransitIntents services network s.quaggaMac s.peersIp

/-- The route lookup in one table: the loop is left at the first match. -/
def scanTable (dstIp : Ip4Address) (nextHop : NextHop) (table : List RouteInfo) :
    Handler NextHop :=
  match table.find? (·.ipPrefix = IpPrefix.valueOf dstIp 24) with
  | none => pure nextHop
  | some info => do
    let route ← orThrow .noSuchElement info.bestRoute
    pure ⟨route.nextHop, route.nextHopMac⟩

/-- The route lookup of `process`. The `break` leaves the loop over one table only, so the last
table with a match wins. -/
def findNextHop (network : Network) (dstIp : Ip4Address) (nextHop : NextHop) : Handler NextHop :=
  network.routeTables.foldlM (scanTable dstIp) nextHop

/-- The SDN-external branch of `process`. -/
def sdnExternal (network : Network) (s : State) (inPkt : InboundPacket) (ipv4Pkt : IPv4)
    (nextHop : NextHop) : Handler Unit := do
  let intf ← orThrow .nullPointer (network.getMatchingInterface nextHop.nextHopIp)
  buildSDNExternalIntent services .sdnExternalForward inPkt.receivedFrom intf.connectPoint
    (IpPrefix.valueOf ipv4Pkt.destinationAddress 24) s.quaggaMac nextHop.nextHopMac
  buildSDNExternalIntent services .sdnExternalReverse intf.connectPoint inPkt.receivedFrom
    (IpPrefix.valueOf ipv4Pkt.sourceAddress 24) s.virtualMac inPkt.parsed.sourceMAC

/-- The body of the loop over the hosts in the External-SDN branch. -/
def connectHost (s : State) (inPkt : InboundPacket) (ipv4Pkt : IPv4) (host : Host) :
    Handler Unit := do
  buildSDNExternalIntent services .externalSdnForward inPkt.receivedFrom host.location
    (IpPrefix.valueOf ipv4Pkt.destinationAddress 24) s.virtualMac host.mac
  buildSDNExternalIntent services .externalSdnReverse host.location inPkt.receivedFrom
    (IpPrefix.valueOf ipv4Pkt.sourceAddress 24) s.quaggaMac inPkt.parsed.sourceMAC

/-- The External-SDN branch of `process`. -/
def externalSdn (network : Network) (s : State) (inPkt : InboundPacket) (ipv4Pkt : IPv4) :
    Handler Unit :=
  (network.getHostsByIp ipv4Pkt.destinationAddress).forM (connectHost services s inPkt ipv4Pkt)

/-- The part of `process` after the transit block: the flow of the packet itself. -/
def flowTraffic (network : Network) (s : State) (inPkt : InboundPacket) (ipv4Pkt : IPv4)
    (nextHop : NextHop) : Handler Unit := do
  let nextHop ← findNextHop network ipv4Pkt.destinationAddress nextHop
  if some inPkt.parsed.destinationMAC = s.virtualMac then
    sdnExternal services network s inPkt ipv4Pkt nextHop
  else if some inPkt.parsed.destinationMAC = s.quaggaMac then
    externalSdn services network s inPkt ipv4Pkt
  else pure ()

/-- The part of `process` for the packets addressed to the router. `s` is the state in which
the packet comes in; only the flag and the submitted intents change afterwards. -/
def processRouted (network : Network) (s : State) (inPkt : InboundPacket) (ipv4Pkt : IPv4) :
    Handler Unit := do
  let nextHop ← transitTraffic services network s
  flowTraffic services network s inPkt ipv4Pkt nextHop

/-- The packet is addressed to the router, or to the BGP speaker for it. -/
def State.RouterBound (s : State) (dstMac : MacAddress) : Prop :=
  some dstMac = s.virtualMac ∨ some dstMac = s.quaggaMac

instance (s : State) (dstMac : MacAddress) : Decidable (s.RouterBound dstMac) :=
  inferInstanceAs (Decidable (_ ∨ _))

/-- `MyPacketProcessor.process`. The result is whether `context.block()` is called. -/
def process (network : Network) (inPkt : InboundPacket) : Handler Bool :=
  match inPkt.parsed.payload with
  | .ipv4 ipv4Pkt => do
    let s ← get
    if s.RouterBound inPkt.parsed.destinationMAC then do
      processRouted services network s inPkt ipv4Pkt
      pure true
    -- intra domain traffic
    else pure false
  | _ => pure false

/-! ## Runs -/

/-- An event of a run, with the network as it is when the event is handled. -/
inductive Event where
  | config (network : Network) (e : NetworkConfigEvent QuaggaConfig)
  | packetIn (network : Network) (inPkt : InboundPacket)

/-- The network of an event. -/
def Event.network : Event → Network
  | .config network _ => network
  | .packetIn network _ => network

/-- One event of a run; an exception abandons the event, and the run goes on. -/
def next (s : State) : Event → State
  | .config network e => finalState (QuaggaConfigListener.event services network e) s
  | .packetIn network inPkt => finalState (process services network inPkt) s

end Handlers

/-! ## The deployed configuration -/

/-- The texts of the deployed configuration, as the parsers read them. -/
def deployed : Services where
  appId := ⟨"nycu.sdnfv.vrouter"⟩
  deviceConnectPoint text := if text = "of:0000000000000002/2" then some ⟨⟨2⟩, ⟨2⟩⟩ else none
  macAddress text :=
    if text = "9e:68:5b:4b:7c:af" then some ⟨0x9e685b4b7caf⟩
    else if text = "00:00:00:00:00:01" then some ⟨1⟩
    else none
  ip4Address text :=
    if text = "192.168.50.254" then some ⟨0xc0a832fe⟩
    else if text = "172.30.1.2" then some ⟨0xac1e0102⟩
    else if text = "172.30.2.2" then some ⟨0xac1e0202⟩
    else if text = "172.30.3.2" then some ⟨0xac1e0302⟩
    else none
  checks := IntentChecks.strict

/-- The router section of `config.json`. -/
def deployedConfig : QuaggaConfig where
  get name :=
    if name = "quagga" then some "of:0000000000000002/2"
    else if name = "quagga-mac" then some "9e:68:5b:4b:7c:af"
    else if name = "virtual-ip" then some "192.168.50.254"
    else if name = "virtual-mac" then some "00:00:00:00:00:01"
    else none
  getList name :=
    if name = "peers" then some ["172.30.1.2", "172.30.2.2", "172.30.3.2"] else none

/-- The interface with the address `ip`/24 at `cp`. -/
def interfaceAt (cp : ConnectPoint) (ip : Ip4Address) : Interface :=
  ⟨cp, [⟨ip, IpPrefix.valueOf ip 24⟩]⟩

/-- The ports section of `config.json`. -/
def deployedInterface (ip : Ip4Address) : Option Interface :=
  [interfaceAt ⟨⟨2⟩, ⟨3⟩⟩ ⟨0xac1e0101⟩, interfaceAt ⟨⟨2⟩, ⟨4⟩⟩ ⟨0xac1e0201⟩,
    interfaceAt ⟨⟨1⟩, ⟨4⟩⟩ ⟨0xac1e0301⟩].find? fun intf =>
      intf.ipAddressesList.any (·.subnetAddress.contains ip)

/-- The routes that the three edge routers of the deployment announce. -/
def deployedRoutes : List RouteInfo :=
  [⟨IpPrefix.valueOf ⟨0xc0a83300⟩ 24, some ⟨⟨0xac1e0102⟩, ⟨0xe1⟩⟩⟩,
    ⟨IpPrefix.valueOf ⟨0xc0a83400⟩ 24, some ⟨⟨0xac1e0202⟩, ⟨0xe2⟩⟩⟩,
    ⟨IpPrefix.valueOf ⟨0xc0a83500⟩ 24, some ⟨⟨0xac1e0302⟩, ⟨0xe3⟩⟩⟩]

/-- The host `h01` of the deployment. -/
def h01 : Host := ⟨⟨0xa1⟩, [⟨0xc0a83201⟩], ⟨⟨1⟩, ⟨2⟩⟩⟩

/-- The host `h02` of the deployment. -/
def h02 : Host := ⟨⟨0xa2⟩, [⟨0xc0a83202⟩], ⟨⟨1⟩, ⟨3⟩⟩⟩

/-- The deployment once the routes are known. -/
def deployedNetwork (hosts : List Host) : Network :=
  ⟨deployedInterface, [deployedRoutes], hosts⟩

/-- The deployment with the first `n` of its routes. -/
def deployedWith (n : ℕ) : Network := ⟨deployedInterface, [deployedRoutes.take n], [h01]⟩

/-- The peers of the deployment. -/
def deployedPeers : List Ip4Address := [⟨0xac1e0102⟩, ⟨0xac1e0202⟩, ⟨0xac1e0302⟩]

/-- The event by which the configuration arrives. -/
def deployedEvent : NetworkConfigEvent QuaggaConfig := ⟨.CONFIG_ADDED, true, some deployedConfig⟩

/-- A packet of `host` to `dstIp`, sent to the virtual gateway. -/
def packetFrom (host : Host) (srcIp dstIp : Ip4Address) : InboundPacket :=
  ⟨host.location, ⟨host.mac, ⟨1⟩, .ipv4 ⟨srcIp, dstIp, .udp 4000 53⟩⟩⟩

/-- A packet of `h01` to a host behind the first edge router. -/
def deployedPacket : InboundPacket := packetFrom h01 ⟨0xc0a83201⟩ ⟨0xc0a83302⟩

end VRouter
