import OnosApps.Maps.ConcurrentMap
import OnosApps.Onos.Config
import OnosApps.Onos.Intent
import OnosApps.Runs.Handler

/-!
# Unicast DHCP: the configuration listener and the packet processor

The handlers of the unicast DHCP application. The listener records where the DHCP server is.
The processor connects a client with the server by two intents when it first sees an IPv4
packet of the client, and sends the packet on.

## Main definitions

* `State`: `serverLocation`, `macToCp`, and the intents submitted
* `DhcpConfigListener.event`, `process`: the two handlers
* `next`: one event of a run; an exception abandons the event
* `Origin`, `built m o`: where a client is first seen and the server known then, and the intents
  built from there

## Main results

* `finalState_event`: a configuration event can only move the server
* `finalState_process_of_not_ipv4`, `finalState_process_of_mem`,
  `finalState_process_of_not_mem`: what a packet-in leaves
* `next_cases`: what one event can do
-/

namespace UnicastDhcp

open Onos Runs

/-- The fields of the application, and the intents it has submitted so far. -/
structure State where
  serverLocation : Option ConnectPoint
  macToCp : ConcurrentMap MacAddress ConnectPoint
  submitted : List PointToPointIntent

/-- The state after `activate`. -/
def State.init : State := ⟨none, ∅, []⟩

/-- `DhcpConfig`: its one field, which may be missing. -/
structure DhcpConfig where
  name : Option String
deriving DecidableEq, Repr

/-- The parts of ONOS the handlers call: the parser of connect points, which throws on what it
cannot read, and the checks of the intent builders. -/
structure Services where
  appId : ApplicationId
  deviceConnectPoint : Option String → Option ConnectPoint
  checks : IntentChecks

/-- `UDP.DHCP_CLIENT_PORT`. -/
def DHCP_CLIENT_PORT : TpPort := 68

/-- `UDP.DHCP_SERVER_PORT`. -/
def DHCP_SERVER_PORT : TpPort := 67

/-- The DHCP packets of the client `mac`. -/
def clientSelector (mac : MacAddress) : TrafficSelector where
  ethSrc := some mac
  ethType := some Ethernet.TYPE_IPV4
  ipProtocol := some PROTOCOL_UDP
  udpSrc := some DHCP_CLIENT_PORT
  udpDst := some DHCP_SERVER_PORT

/-- The DHCP packets for the client `mac`. -/
def serverSelector (mac : MacAddress) : TrafficSelector where
  ethDst := some mac
  ethType := some Ethernet.TYPE_IPV4
  ipProtocol := some PROTOCOL_UDP
  udpSrc := some DHCP_SERVER_PORT
  udpDst := some DHCP_CLIENT_PORT

theorem clientSelector_injective : Function.Injective clientSelector := fun m m' h => by
  simpa [clientSelector] using h

theorem serverSelector_injective : Function.Injective serverSelector := fun m m' h => by
  simpa [serverSelector] using h

theorem clientSelector_ne_serverSelector (m m' : MacAddress) :
    clientSelector m ≠ serverSelector m' := by
  simp [clientSelector, serverSelector]

section Handlers

variable (services : Services)

/-- `DhcpConfigListener.event`. -/
def DhcpConfigListener.event (e : NetworkConfigEvent DhcpConfig) :
    EStateM JavaException State Unit :=
  match e.read with
  | some config => do
    let location ← orThrow .illegalArgument (services.deviceConnectPoint config.name)
    modify fun s => { s with serverLocation := some location }
  | none => pure ()

/-- The intent that takes `selector` from `ingress` to `egress`. -/
def connection (selector : TrafficSelector) (ingress egress : ConnectPoint) :
    PointToPointIntent where
  appId := services.appId
  selector := selector
  treatment := { output := some (.port egress.port) }
  filteredIngressPoint := ingress
  filteredEgressPoint := egress
  priority := DEFAULT_INTENT_PRIORITY

/-- `PointToPointIntent.builder() … build()` and `intentService.submit(intent)`. -/
def buildAndSubmit (intent : PointToPointIntent) : EStateM JavaException State Unit :=
  if services.checks.pointToPoint intent.filteredIngressPoint intent.filteredEgressPoint then
    modify fun s => { s with submitted := s.submitted ++ [intent] }
  else throw .illegalArgument

/-- `MyPacketProcessor.process`. The result is the port the packet is sent to, if it is
sent. -/
def process (pkt : InboundPacket) : EStateM JavaException State (Option PortNumber) :=
  if pkt.parsed.getEtherType ≠ Ethernet.TYPE_IPV4 then pure none
  else do
    let srcMac := pkt.parsed.sourceMAC
    let s ← get
    if srcMac ∈ s.macToCp then do
      -- the intents of this client exist already
      let server ← orThrow .nullPointer s.serverLocation
      pure (some server.port)
    else do
      -- recorded before the intents are built: an exception from here on leaves the entry
      modify fun s => { s with macToCp := s.macToCp.putIfAbsent srcMac pkt.receivedFrom }
      let server ← orThrow .nullPointer s.serverLocation
      buildAndSubmit services (connection services (clientSelector srcMac) pkt.receivedFrom server)
      buildAndSubmit services (connection services (serverSelector srcMac) server pkt.receivedFrom)
      pure (some server.port)

/-- An event of a run. -/
inductive Event where
  | config (e : NetworkConfigEvent DhcpConfig)
  | packetIn (pkt : InboundPacket)

/-- One event of a run; an exception abandons the event, and the run goes on. -/
def next (s : State) : Event → State
  | .config e => finalState (DhcpConfigListener.event services e) s
  | .packetIn pkt => finalState (process services pkt) s

/-! ## What is built for a client -/

/-- The point where a client is first seen, and the server known at that time. -/
structure Origin where
  point : ConnectPoint
  server : Option ConnectPoint
deriving DecidableEq

/-- The intent for the DHCP packets of `m`. -/
def toServer (m : MacAddress) (point server : ConnectPoint) : PointToPointIntent :=
  connection services (clientSelector m) point server

/-- The intent for the DHCP packets to `m`. -/
def toClient (m : MacAddress) (point server : ConnectPoint) : PointToPointIntent :=
  connection services (serverSelector m) server point

/-- The intents built for the client `m`: none without a server, and none after one that the
builder refuses. -/
def built (m : MacAddress) (o : Origin) : List PointToPointIntent :=
  match o.server with
  | none => []
  | some server =>
    if services.checks.pointToPoint o.point server then
      if services.checks.pointToPoint server o.point then
        [toServer services m o.point server, toClient services m o.point server]
      else [toServer services m o.point server]
    else []

/-- The state after the first packet of a client. -/
def afterFirst (s : State) (pkt : InboundPacket) : State where
  serverLocation := s.serverLocation
  macToCp := s.macToCp.putIfAbsent pkt.parsed.sourceMAC pkt.receivedFrom
  submitted := s.submitted ++
    built services pkt.parsed.sourceMAC ⟨pkt.receivedFrom, s.serverLocation⟩

variable (s : State) {pkt : InboundPacket}

theorem finalState_event (e : NetworkConfigEvent DhcpConfig) :
    ∃ location, finalState (DhcpConfigListener.event services e) s =
      { s with serverLocation := location } := by
  unfold DhcpConfigListener.event
  cases e.read with
  | none => exact ⟨s.serverLocation, rfl⟩
  | some config =>
    cases hloc : services.deviceConnectPoint config.name with
    -- the text is no connect point: the parser throws
    | none => exact ⟨s.serverLocation, by simp [finalState, hloc]⟩
    | some location => exact ⟨some location, by simp [finalState, hloc]⟩

variable {services s}

theorem finalState_process_of_not_ipv4
    (h : pkt.parsed.getEtherType ≠ Ethernet.TYPE_IPV4) :
    finalState (process services pkt) s = s := by
  simp [finalState, process, h]

theorem finalState_process_of_mem (h : pkt.parsed.sourceMAC ∈ s.macToCp) :
    finalState (process services pkt) s = s := by
  unfold finalState process
  split_ifs
  · rfl
  · cases hserver : s.serverLocation <;> simp [h, hserver]

theorem finalState_process_of_not_mem (hip : pkt.parsed.getEtherType = Ethernet.TYPE_IPV4)
    (h : pkt.parsed.sourceMAC ∉ s.macToCp) :
    finalState (process services pkt) s = afterFirst services s pkt := by
  unfold finalState process afterFirst built toServer toClient
  cases hserver : s.serverLocation with
  | none => simp [hip, h, hserver]
  | some server =>
    -- what was submitted before a builder threw stays submitted
    by_cases hc : services.checks.pointToPoint pkt.receivedFrom server
    · by_cases hs : services.checks.pointToPoint server pkt.receivedFrom
      · simp [hip, h, hserver, hc, hs, buildAndSubmit, connection]
      · simp [hip, h, hserver, hc, hs, buildAndSubmit, connection]
    · simp [hip, h, hserver, hc, buildAndSubmit, connection]

variable (services s)

/-- **What one event can do**: the first packet of a client records and connects it, and any other
event changes the server at most. -/
theorem next_cases (e : Event) :
    (∃ pkt, e = .packetIn pkt ∧ pkt.parsed.getEtherType = Ethernet.TYPE_IPV4 ∧
        pkt.parsed.sourceMAC ∉ s.macToCp ∧ next services s e = afterFirst services s pkt) ∨
      (∀ pkt, e = .packetIn pkt → pkt.parsed.getEtherType = Ethernet.TYPE_IPV4 →
        pkt.parsed.sourceMAC ∈ s.macToCp) ∧
      ∃ location, next services s e = { s with serverLocation := location } := by
  cases e with
  | config e => exact .inr ⟨fun _ h => (by cases h), finalState_event services s e⟩
  | packetIn pkt =>
    by_cases hip : pkt.parsed.getEtherType = Ethernet.TYPE_IPV4
    · by_cases hmem : pkt.parsed.sourceMAC ∈ s.macToCp
      · refine .inr ⟨?_, s.serverLocation, finalState_process_of_mem hmem⟩
        rintro _ ⟨⟩ _
        exact hmem
      · exact .inl ⟨pkt, rfl, hip, hmem, finalState_process_of_not_mem hip hmem⟩
    · refine .inr ⟨?_, s.serverLocation, finalState_process_of_not_ipv4 hip⟩
      rintro _ ⟨⟩ h
      exact absurd h hip

end Handlers

section Built

variable {services : Services} {m : MacAddress}

theorem mem_built {o : Origin} {i : PointToPointIntent} (hi : i ∈ built services m o) :
    ∃ server, o.server = some server ∧
      (i = toServer services m o.point server ∨ i = toClient services m o.point server) := by
  unfold built at hi
  cases hserver : o.server with
  | none => simp [hserver] at hi
  | some server =>
    simp only [hserver] at hi
    refine ⟨server, rfl, ?_⟩
    split_ifs at hi
    · exact List.mem_pair.mp hi
    · exact .inl (List.mem_singleton.mp hi)
    · cases hi

/-- What is built for a client is selected by its address. -/
theorem selector_of_mem_built {o : Origin} {i : PointToPointIntent} (hi : i ∈ built services m o) :
    i.selector = clientSelector m ∨ i.selector = serverSelector m := by
  obtain ⟨server, -, rfl | rfl⟩ := mem_built hi
  · exact .inl rfl
  · exact .inr rfl

end Built

end UnicastDhcp
