import OnosApps.VRouter.RightHost

/-!
# The virtual router: intents that do not conflict

All intents of the application have one priority, so that two intents that take the same frame
have to treat it alike. What the router is for is a forwarding plan: from the speaker to the
peers and back, from the edge to the next hops and to the hosts, from the hosts to the next
hops. The intents of a run in a deployment whose prefixes and ports keep these apart implement
the plan, and if each subnet of hosts has one host, the plan is a function.

## Main definitions

* `Intent.action`, `ConflictFree`: intents that take the same frame agree on what is done
* `Deployment`: a configuration, the interfaces, and all routes and hosts of a run, kept apart
* `Deployment.HostsAgree`: each subnet of hosts has one host
* `Deployment.Plan`: the forwarding plan
* `Deployment.Admits`: the events of a run in the deployment

## Main results

* `Deployment.Plan.functional`: the plan of a deployment is a function, if the hosts agree
* `Implements.next`: an admitted event keeps to the plan
* `conflictFree_of_admits`: no run in a deployment has conflicting intents
* `reverse_intents_conflict`: two hosts of the deployed topology
-/

namespace Onos

/-- The egress point of an intent, and the addresses it rewrites. -/
structure Action where
  egressPoint : ConnectPoint
  ethSrc : Option MacAddress
  ethDst : Option MacAddress
deriving DecidableEq

/-- What an intent does with the frames it takes. -/
def Intent.action (i : Intent) : Action :=
  ⟨i.egressPoint, i.treatment.ethSrc, i.treatment.ethDst⟩

end Onos

namespace VRouter

open Onos Runs

/-- Any two submitted intents that take a frame at the same point do the same with it. -/
def ConflictFree (s : State) : Prop :=
  ∀ sub ∈ s.submitted, ∀ sub' ∈ s.submitted, ∀ cp eth,
    sub.intent.Accepts cp eth → sub'.intent.Accepts cp eth →
      sub.intent.action = sub'.intent.action

/-! ## Deployments -/

/-- A configuration and a network with all the routes and hosts that a run ever sees. The
speaker, the edge and the hosts are on different ports; the subnets of the edge, the subnets of
the hosts and the routes do not overlap, up to the routes that stay at the edge port they
overlap; overlapping routes lead to one next hop. -/
structure Deployment where
  quaggaCp : ConnectPoint
  quaggaMac : MacAddress
  virtualMac : MacAddress
  peersIp : List Ip4Address
  network : Network
  speaker_not_peer : ∀ ip ∈ peersIp, network.pointOf ip ≠ some quaggaCp
  speaker_not_egress : ∀ info ∈ network.routes, ∀ a ∈ network.leadsTo info, a.1 ≠ quaggaCp
  speaker_not_host : ∀ h ∈ network.hosts, h.location ≠ quaggaCp
  host_not_peer : ∀ h ∈ network.hosts, ∀ ip ∈ peersIp, network.pointOf ip ≠ some h.location
  host_not_egress : ∀ h ∈ network.hosts, ∀ info ∈ network.routes,
    ∀ a ∈ network.leadsTo info, a.1 ≠ h.location
  peers_agree : ∀ ip ∈ peersIp, ∀ ip' ∈ peersIp,
    IpPrefix.valueOf ip 24 = IpPrefix.valueOf ip' 24 → network.pointOf ip = network.pointOf ip'
  routes_agree : ∀ info ∈ network.routes, ∀ info' ∈ network.routes,
    info.ipPrefix.Overlaps info'.ipPrefix →
      ∀ a ∈ network.leadsTo info, ∀ a' ∈ network.leadsTo info', a = a'
  subnets_routes : ∀ ip ∈ peersIp, ∀ intf ∈ network.getMatchingInterface ip,
    ∀ address ∈ intf.ipAddressesList.head?, ∀ info ∈ network.routes,
      address.subnetAddress.Overlaps info.ipPrefix →
        ∀ a ∈ network.leadsTo info, a.1 = intf.connectPoint
  subnets_hosts : ∀ ip ∈ peersIp, ∀ intf ∈ network.getMatchingInterface ip,
    ∀ address ∈ intf.ipAddressesList.head?, ∀ h ∈ network.hosts, ∀ hostIp ∈ h.ipAddresses,
      ¬ address.subnetAddress.Overlaps (IpPrefix.valueOf hostIp 24)
  routes_hosts : ∀ info ∈ network.routes, ∀ h ∈ network.hosts, ∀ hostIp ∈ h.ipAddresses,
    ¬ info.ipPrefix.Overlaps (IpPrefix.valueOf hostIp 24)

namespace Deployment

variable (D : Deployment)

/-- Hosts with addresses in one /24 are at one port and have one address there. -/
def HostsAgree : Prop :=
  ∀ h ∈ D.network.hosts, ∀ h' ∈ D.network.hosts, ∀ ip ∈ h.ipAddresses, ∀ ip' ∈ h'.ipAddresses,
    IpPrefix.valueOf ip 24 = IpPrefix.valueOf ip' 24 → h.location = h'.location ∧ h.mac = h'.mac

/-- The ports of the edge: those of the peers, and those towards the next hops. -/
def EdgePoint (p : ConnectPoint) : Prop :=
  D.network.PeerPoint D.peersIp p ∨ D.network.EgressPoint p

/-- **The forwarding plan**: what is done with a packet to `ip` that comes in at a port. -/
inductive Plan : ConnectPoint → Ip4Address → Action → Prop
  | toPeer {peerIp : Ip4Address} {intf : Interface} {cp : ConnectPoint} {ip : Ip4Address}
      (hpeer : peerIp ∈ D.peersIp) (hintf : D.network.getMatchingInterface peerIp = some intf)
      (hip : (IpPrefix.valueOf peerIp 24).contains ip) (hcp : cp = D.quaggaCp) :
      Plan cp ip ⟨intf.connectPoint, none, none⟩
  | toSpeaker {peerIp : Ip4Address} {intf : Interface} {address : InterfaceIpAddress}
      {cp : ConnectPoint} {ip : Ip4Address} (hpeer : peerIp ∈ D.peersIp)
      (hintf : D.network.getMatchingInterface peerIp = some intf)
      (haddress : intf.ipAddressesList.head? = some address)
      (hip : address.subnetAddress.contains ip) (hcp : cp = intf.connectPoint) :
      Plan cp ip ⟨D.quaggaCp, none, none⟩
  | toNextHop {info : RouteInfo} {egressPoint cp : ConnectPoint} {mac : MacAddress}
      {ip : Ip4Address} (hinfo : info ∈ D.network.routes)
      (hlead : D.network.leadsTo info = some (egressPoint, mac)) (hip : info.ipPrefix.contains ip)
      (hcp : D.EdgePoint cp ∧ cp ≠ egressPoint ∨ ∃ h ∈ D.network.hosts, h.location = cp) :
      Plan cp ip ⟨egressPoint, some D.quaggaMac, some mac⟩
  | toHost {host : Host} {cp : ConnectPoint} {hostIp ip : Ip4Address}
      (hhost : host ∈ D.network.hosts) (hhostIp : hostIp ∈ host.ipAddresses)
      (hip : (IpPrefix.valueOf hostIp 24).contains ip) (hcp : D.EdgePoint cp) :
      Plan cp ip ⟨host.location, some D.virtualMac, some host.mac⟩

variable {D}

theorem EdgePoint.of_peer {peerIp : Ip4Address} {intf : Interface} (hpeer : peerIp ∈ D.peersIp)
    (hintf : D.network.getMatchingInterface peerIp = some intf) : D.EdgePoint intf.connectPoint :=
  .inl ⟨peerIp, hpeer, intf, hintf, rfl⟩

theorem EdgePoint.ne_speaker {p : ConnectPoint} (h : D.EdgePoint p) : p ≠ D.quaggaCp := by
  rintro rfl
  rcases h with ⟨ip, hip, intf, hintf, hcp⟩ | ⟨info, hinfo, mac, hlead⟩
  · exact D.speaker_not_peer ip hip (by rw [Network.pointOf_eq_some hintf, hcp])
  · exact D.speaker_not_egress info hinfo _ hlead rfl

theorem EdgePoint.ne_host {p : ConnectPoint} (h : D.EdgePoint p) {host : Host}
    (hhost : host ∈ D.network.hosts) : host.location ≠ p := by
  rintro rfl
  rcases h with ⟨ip, hip, intf, hintf, hcp⟩ | ⟨info, hinfo, mac, hlead⟩
  · exact D.host_not_peer host hhost ip hip (by rw [Network.pointOf_eq_some hintf, hcp])
  · exact D.host_not_egress host hhost info hinfo _ hlead rfl

theorem valueOf_eq_of_contains {ip ip' ip'' : Ip4Address}
    (h : (IpPrefix.valueOf ip 24).contains ip'') (h' : (IpPrefix.valueOf ip' 24).contains ip'') :
    IpPrefix.valueOf ip 24 = IpPrefix.valueOf ip' 24 := by
  rw [IpPrefix.contains_valueOf] at h h'
  exact IpPrefix.valueOf_eq_valueOf_iff.mpr (h.symm.trans h')

section Functional

variable {cp : ConnectPoint} {ip : Ip4Address} {a a' : Action}

variable (D a) in
/-- The action leads to a host. -/
def ToHost : Prop := ∃ h ∈ D.network.hosts, h.location = a.egressPoint

/-- At the port of the speaker, the plan is the port of the peer in whose subnet `ip` lies. -/
theorem Plan.at_speaker (h : D.Plan D.quaggaCp ip a) : ∃ peerIp ∈ D.peersIp,
    (IpPrefix.valueOf peerIp 24).contains ip ∧
      D.network.pointOf peerIp = some a.egressPoint ∧ a.ethSrc = none ∧ a.ethDst = none := by
  generalize hq : D.quaggaCp = cp at h
  cases h with
  | toPeer hpeer hintf hip hcp => exact ⟨_, hpeer, hip, Network.pointOf_eq_some hintf, rfl, rfl⟩
  | toSpeaker hpeer hintf haddress hip hcp =>
    exact absurd (hcp.symm.trans hq.symm) (EdgePoint.of_peer hpeer hintf).ne_speaker
  | toNextHop hinfo hlead hip hcp =>
    rcases hcp with hcp | ⟨h, hh, hloc⟩
    · exact absurd hq.symm hcp.1.ne_speaker
    · exact absurd (hloc.trans hq.symm) (D.speaker_not_host h hh)
  | toHost hhost hhostIp hip hcp => exact absurd hq.symm hcp.ne_speaker

/-- At the port of a host, the plan is the next hop of a route with `ip`. -/
theorem Plan.at_host {host : Host} (hhost : host ∈ D.network.hosts)
    (h : D.Plan host.location ip a) : ∃ info ∈ D.network.routes, ∃ egressPoint mac,
      D.network.leadsTo info = some (egressPoint, mac) ∧ info.ipPrefix.contains ip ∧
        a = ⟨egressPoint, some D.quaggaMac, some mac⟩ := by
  generalize hloc : host.location = cp at h
  cases h with
  | toPeer hpeer hintf hip hcp => exact absurd (hloc.trans hcp) (D.speaker_not_host host hhost)
  | toSpeaker hpeer hintf haddress hip hcp =>
    exact absurd (hloc.trans hcp) ((EdgePoint.of_peer hpeer hintf).ne_host hhost)
  | toNextHop hinfo hlead hip hcp => exact ⟨_, hinfo, _, _, hlead, hip, rfl⟩
  | toHost _ _ _ hcp => exact absurd hloc (hcp.ne_host hhost)

/-- At a port of the edge, the plan is the speaker for the subnet of a peer at that port, the
host for a subnet of hosts, and the next hop, at another port, for a route. -/
inductive EdgeCase (D : Deployment) (cp : ConnectPoint) (ip : Ip4Address) : Action → Prop
  | speaker {peerIp : Ip4Address} {intf : Interface} {address : InterfaceIpAddress}
      (hpeer : peerIp ∈ D.peersIp) (hintf : D.network.getMatchingInterface peerIp = some intf)
      (haddress : intf.ipAddressesList.head? = some address)
      (hip : address.subnetAddress.contains ip) (hcp : cp = intf.connectPoint) :
      EdgeCase D cp ip ⟨D.quaggaCp, none, none⟩
  | nextHop {info : RouteInfo} {egressPoint : ConnectPoint} {mac : MacAddress}
      (hinfo : info ∈ D.network.routes)
      (hlead : D.network.leadsTo info = some (egressPoint, mac)) (hip : info.ipPrefix.contains ip)
      (hcp : cp ≠ egressPoint) : EdgeCase D cp ip ⟨egressPoint, some D.quaggaMac, some mac⟩
  | host {host : Host} {hostIp : Ip4Address} (hhost : host ∈ D.network.hosts)
      (hhostIp : hostIp ∈ host.ipAddresses) (hip : (IpPrefix.valueOf hostIp 24).contains ip) :
      EdgeCase D cp ip ⟨host.location, some D.virtualMac, some host.mac⟩

theorem Plan.at_edge (hcp : D.EdgePoint cp) (h : D.Plan cp ip a) : D.EdgeCase cp ip a := by
  cases h with
  | toPeer _ _ _ hq => exact absurd hq hcp.ne_speaker
  | toSpeaker hpeer hintf haddress hip hcp => exact .speaker hpeer hintf haddress hip hcp
  | toNextHop hinfo hlead hip h =>
    rcases h with h | ⟨host, hhost, hloc⟩
    · exact .nextHop hinfo hlead hip h.2
    · exact absurd hloc (hcp.ne_host hhost)
  | toHost hhost hhostIp hip => exact .host hhost hhostIp hip

theorem routes_agree_of_contains {info info' : RouteInfo} (hinfo : info ∈ D.network.routes)
    (hinfo' : info' ∈ D.network.routes) (hip : info.ipPrefix.contains ip)
    (hip' : info'.ipPrefix.contains ip) {x x' : ConnectPoint × MacAddress}
    (hlead : D.network.leadsTo info = some x) (hlead' : D.network.leadsTo info' = some x') :
    x = x' :=
  D.routes_agree info hinfo info' hinfo' ⟨ip, hip, hip'⟩ x hlead x' hlead'

/-- A case that comes before another excludes it: the subnets of the edge are kept apart from
the routes and the hosts, and the routes from the hosts. Two hosts have to agree. -/
theorem EdgeCase.functional (hhosts : D.ToHost a → D.HostsAgree) (h : D.EdgeCase cp ip a)
    (h' : D.EdgeCase cp ip a') : a = a' := by
  cases h with
  | speaker hpeer hintf haddress hip hcp =>
    cases h' with
    | speaker => rfl
    | nextHop hinfo hlead hip' hne =>
      exact absurd (hcp.trans (D.subnets_routes _ hpeer _ hintf _ haddress _ hinfo ⟨ip, hip, hip'⟩
        _ hlead).symm) hne
    | host hhost hhostIp hip' =>
      exact absurd ⟨ip, hip, hip'⟩
        (D.subnets_hosts _ hpeer _ hintf _ haddress _ hhost _ hhostIp)
  | nextHop hinfo hlead hip hne =>
    cases h' with
    | speaker hpeer hintf haddress hip' hcp =>
      exact absurd (hcp.trans (D.subnets_routes _ hpeer _ hintf _ haddress _ hinfo ⟨ip, hip', hip⟩
        _ hlead).symm) hne
    | nextHop hinfo' hlead' hip' _ =>
      cases routes_agree_of_contains hinfo hinfo' hip hip' hlead hlead'
      rfl
    | host hhost hhostIp hip' =>
      exact absurd ⟨ip, hip, hip'⟩ (D.routes_hosts _ hinfo _ hhost _ hhostIp)
  | host hhost hhostIp hip =>
    cases h' with
    | speaker hpeer hintf haddress hip' hcp =>
      exact absurd ⟨ip, hip', hip⟩
        (D.subnets_hosts _ hpeer _ hintf _ haddress _ hhost _ hhostIp)
    | nextHop hinfo hlead hip' _ =>
      exact absurd ⟨ip, hip', hip⟩ (D.routes_hosts _ hinfo _ hhost _ hhostIp)
    | host hhost' hhostIp' hip' =>
      obtain ⟨hloc, hmac⟩ := hhosts ⟨_, hhost, rfl⟩ _ hhost _ hhost' _ hhostIp _ hhostIp'
        (valueOf_eq_of_contains hip hip')
      rw [hloc, hmac]

/-- Every port of the plan is that of the speaker, of the edge, or of a host. -/
theorem Plan.port (h : D.Plan cp ip a) :
    cp = D.quaggaCp ∨ D.EdgePoint cp ∨ ∃ host ∈ D.network.hosts, host.location = cp := by
  cases h with
  | toPeer _ _ _ hcp => exact .inl hcp
  | toSpeaker hpeer hintf _ _ hcp => exact .inr (.inl (hcp ▸ EdgePoint.of_peer hpeer hintf))
  | toNextHop _ _ _ hcp => exact .inr (hcp.imp_left And.left)
  | toHost _ _ _ hcp => exact .inr (.inl hcp)

/-- **The plan of a deployment is a function** of the port and the destination; towards hosts, if
the hosts agree. -/
theorem Plan.functional (hhosts : D.ToHost a → D.HostsAgree) (h : D.Plan cp ip a)
    (h' : D.Plan cp ip a') : a = a' := by
  rcases h.port with rfl | hcp | ⟨host, hhost, rfl⟩
  · obtain ⟨peerIp, hpeer, hip, hpoint, hsrc, hdst⟩ := h.at_speaker
    obtain ⟨peerIp', hpeer', hip', hpoint', hsrc', hdst'⟩ := h'.at_speaker
    -- the two peers have `ip` in their /24, so it is one /24 and one port
    have hsame := D.peers_agree peerIp hpeer peerIp' hpeer' (valueOf_eq_of_contains hip hip')
    rw [hpoint, hpoint', Option.some.injEq] at hsame
    cases a
    cases a'
    simp_all
  · exact (h.at_edge hcp).functional hhosts (h'.at_edge hcp)
  · obtain ⟨info, hinfo, egress, mac, hlead, hip, rfl⟩ := h.at_host hhost
    obtain ⟨info', hinfo', egress', mac', hlead', hip', rfl⟩ := h'.at_host hhost
    cases routes_agree_of_contains hinfo hinfo' hip hip' hlead hlead'
    rfl

end Functional

/-! ## Runs in a deployment -/

variable (D)

/-- The network of an event has the interfaces of the deployment, and routes and hosts of it. -/
structure Sees (network : Network) : Prop where
  interfaces : network.getMatchingInterface = D.network.getMatchingInterface
  routes : network.routes ⊆ D.network.routes
  hosts : network.hosts ⊆ D.network.hosts

/-- What can be read of a configuration is the configuration of the deployment. -/
structure Configures (services : Services) (config : QuaggaConfig) : Prop where
  quaggaCp : ∀ cp ∈ config.quaggaCp services, cp = D.quaggaCp
  quaggaMac : ∀ mac ∈ config.quaggaMac services, mac = D.quaggaMac
  virtualMac : ∀ mac ∈ config.virtualMac services, mac = D.virtualMac
  peersIp : ∀ peersIp ∈ config.peersIp services, peersIp ⊆ D.peersIp

/-- The packet comes from a host, at its own port, with its own addresses. -/
def FromHost (inPkt : InboundPacket) (ipv4Pkt : IPv4) : Prop :=
  ∃ host ∈ D.network.hosts, host.mac = inPkt.parsed.sourceMAC ∧
    host.location = inPkt.receivedFrom ∧ ipv4Pkt.sourceAddress ∈ host.ipAddresses

/-- The packet comes from the next hop of a route for the /24 prefix of its source, at the port
towards it. -/
def FromNextHop (inPkt : InboundPacket) (ipv4Pkt : IPv4) : Prop :=
  ∃ info ∈ D.network.routes,
    (∀ ip, (IpPrefix.valueOf ipv4Pkt.sourceAddress 24).contains ip → info.ipPrefix.contains ip) ∧
      D.network.leadsTo info = some (inPkt.receivedFrom, inPkt.parsed.sourceMAC)

/-- The events of a run in the deployment: the configuration is that of the deployment, packets
for the virtual address come from hosts and go to a /24 prefix with a route, and packets for the
address of the speaker that go to a host come from the next hop towards their source. -/
def Admits (services : Services) : Event → Prop
  | .config network e => D.Sees network ∧ ∀ config ∈ e.read, D.Configures services config
  | .packetIn network inPkt => D.Sees network ∧
      ∀ ipv4Pkt, inPkt.parsed.payload = .ipv4 ipv4Pkt →
        (inPkt.parsed.destinationMAC = D.virtualMac → D.FromHost inPkt ipv4Pkt ∧
          ∃ info ∈ network.routes,
            info.ipPrefix = IpPrefix.valueOf ipv4Pkt.destinationAddress 24) ∧
        (inPkt.parsed.destinationMAC ≠ D.virtualMac → inPkt.parsed.destinationMAC = D.quaggaMac →
          (∃ host ∈ network.hosts, ipv4Pkt.destinationAddress ∈ host.ipAddresses) →
            D.FromNextHop inPkt ipv4Pkt)

/-- The intent takes IPv4 packets only, and does with them what the plan says. -/
def Follows (intent : Intent) : Prop :=
  ∀ cp eth, intent.Accepts cp eth → ∃ ipv4Pkt, eth.payload = .ipv4 ipv4Pkt ∧
    D.Plan cp ipv4Pkt.destinationAddress intent.action

/-- **The state implements the plan**: its fields are those of the deployment, as far as they are
assigned, and its intents follow the plan. -/
structure Implements (s : State) : Prop where
  quaggaMac : ∀ mac ∈ s.quaggaMac, mac = D.quaggaMac
  virtualMac : ∀ mac ∈ s.virtualMac, mac = D.virtualMac
  peersIp : ∀ peersIp ∈ s.peersIp, peersIp ⊆ D.peersIp
  follows : ∀ sub ∈ s.submitted, D.Follows sub.intent

variable {D} {services : Services} {network : Network} {s : State} {inPkt : InboundPacket}
  {ipv4Pkt : IPv4}

theorem Sees.leadsTo (h : D.Sees network) (info : RouteInfo) :
    network.leadsTo info = D.network.leadsTo info := by
  simp only [Network.leadsTo, h.interfaces]

theorem Sees.egressPoint (h : D.Sees network) {p : ConnectPoint} (hp : network.EgressPoint p) :
    D.network.EgressPoint p := by
  obtain ⟨info, hinfo, mac, hlead⟩ := hp
  exact ⟨info, h.routes hinfo, mac, h.leadsTo info ▸ hlead⟩

theorem Sees.peerPoint (h : D.Sees network) {peersIp : List Ip4Address} {p : ConnectPoint}
    (hpeers : peersIp ⊆ D.peersIp) (hp : network.PeerPoint peersIp p) :
    D.network.PeerPoint D.peersIp p := by
  obtain ⟨ip, hip, intf, hintf, hcp⟩ := hp
  exact ⟨ip, hpeers hip, intf, h.interfaces ▸ hintf, hcp⟩

/-- An intent with one prefix follows the plan if the plan has its action at each of its ingress
points for each address of the prefix. -/
theorem follows_of_plan {intent : Intent} {p : IpPrefix} (hsel : intent.selector = dstSelector p)
    (hplan : ∀ cp ∈ intent.ingressPoints, ∀ ip, p.contains ip → D.Plan cp ip intent.action) :
    D.Follows intent := by
  intro cp eth hacc
  obtain ⟨ipv4Pkt, hpay, hip⟩ := matches_dstSelector.mp (hsel ▸ hacc.2)
  exact ⟨ipv4Pkt, hpay, hplan cp hacc.1 _ hip⟩

theorem follows_configRequest {config : QuaggaConfig} {sub : Submission} (hsees : D.Sees network)
    (hconf : D.Configures services config) (hreq : ConfigRequest services network config sub) :
    D.Follows sub.intent := by
  cases hreq with
  | bgpOut hcp hpeers hpeer hintf =>
    refine follows_of_plan rfl fun cp hin ip hip => ?_
    refine .toPeer (hconf.peersIp _ hpeers hpeer) (hsees.interfaces ▸ hintf) hip ?_
    rw [← hconf.quaggaCp _ hcp]
    exact Finset.mem_singleton.mp hin
  | bgpIn hcp hpeers hpeer hintf haddress =>
    refine follows_of_plan rfl fun cp hin ip hip => ?_
    obtain rfl := hconf.quaggaCp _ hcp
    exact .toSpeaker (hconf.peersIp _ hpeers hpeer) (hsees.interfaces ▸ hintf) haddress hip
      (Finset.mem_singleton.mp hin)

/-- The next hop that the lookup finds for a destination with a route. -/
theorem leadsTo_of_found {nextHop : NextHop} {intf : Interface} {dstIp : Ip4Address}
    (hfound : Found network.routes dstIp nextHop)
    (hrouted : ∃ info ∈ network.routes, info.ipPrefix = IpPrefix.valueOf dstIp 24)
    (hintf : network.getMatchingInterface nextHop.nextHopIp = some intf) :
    ∃ info ∈ network.routes, info.ipPrefix = IpPrefix.valueOf dstIp 24 ∧
      network.leadsTo info = some (intf.connectPoint, nextHop.nextHopMac) := by
  rcases hfound with ⟨info, hinfo, hexact, hbest⟩ | hnone
  · exact ⟨info, hinfo, hexact, Network.leadsTo_eq_some hbest hintf⟩
  · obtain ⟨info, hinfo, hexact⟩ := hrouted
    exact absurd hexact (hnone info hinfo)

theorem follows_packetRequest {sub : Submission} (hs : D.Implements s)
    (hadmits : D.Admits services (.packetIn network inPkt))
    (hpay : inPkt.parsed.payload = .ipv4 ipv4Pkt)
    (hreq : PacketRequest services network s inPkt ipv4Pkt sub) : D.Follows sub.intent := by
  obtain ⟨hsees, hpkt⟩ := hadmits
  obtain ⟨hvirtual, hquagga⟩ := hpkt ipv4Pkt hpay
  cases hreq with
  | transit hbuilt hpeers hinfo hlead hsrc hegress hingress =>
    refine follows_of_plan rfl fun cp hin ip hip => ?_
    obtain rfl := hs.quaggaMac _ hsrc
    refine .toNextHop (hsees.routes hinfo) (hsees.leadsTo _ ▸ hlead) hip (.inl ⟨?_, ?_⟩)
    · exact (hingress cp hin).imp (hsees.peerPoint (hs.peersIp _ hpeers)) hsees.egressPoint
    · rintro rfl
      exact hegress hin
  | sdnExternalForward hbound hfound hintf hsrc =>
    -- the destination has a route, so the lookup has found it and did not fall back on the locals
    obtain ⟨⟨host, hhost, -, hloc, -⟩, hrouted⟩ := hvirtual (hs.virtualMac _ hbound.symm)
    obtain ⟨info, hinfo, hexact, hlead⟩ := leadsTo_of_found hfound hrouted hintf
    refine follows_of_plan rfl fun cp hin ip hip => ?_
    obtain rfl := hs.quaggaMac _ hsrc
    refine .toNextHop (hsees.routes hinfo) (hsees.leadsTo _ ▸ hlead) (hexact ▸ hip) ?_
    exact .inr ⟨host, hhost, hloc.trans (Finset.mem_singleton.mp hin).symm⟩
  | sdnExternalReverse hbound hfound hintf hsrc =>
    obtain ⟨⟨host, hhost, hmac, hloc, hip⟩, hrouted⟩ := hvirtual (hs.virtualMac _ hbound.symm)
    obtain ⟨info, hinfo, -, hlead⟩ := leadsTo_of_found hfound hrouted hintf
    refine follows_of_plan rfl fun cp hin ip hcontains => ?_
    obtain rfl := hs.virtualMac _ hsrc
    -- the reverse intent: the sender is the host, at its own port
    have hplan := Plan.toHost (D := D) hhost hip hcontains
      (.inr (hsees.egressPoint ⟨info, hinfo, _, hlead⟩))
    rw [hmac, hloc] at hplan
    exact Finset.mem_singleton.mp hin ▸ hplan
  | externalSdnForward hother hbound hhost hip hsrc =>
    obtain rfl := hs.virtualMac _ hsrc
    obtain ⟨info, hinfo, -, hlead⟩ := hquagga (fun h => hother (h ▸ hsrc.symm))
      (hs.quaggaMac _ hbound.symm) ⟨_, hhost, hip⟩
    refine follows_of_plan rfl fun cp hin ip hcontains => ?_
    have hplan := Plan.toHost (D := D) (hsees.hosts hhost) hip hcontains
      (.inr ⟨info, hinfo, _, hlead⟩)
    exact Finset.mem_singleton.mp hin ▸ hplan
  | externalSdnReverse hother hbound hvirtualMac hhost hip hsrc =>
    obtain ⟨mac, hmac⟩ := Option.isSome_iff_exists.mp hvirtualMac
    obtain rfl := hs.virtualMac _ hmac
    obtain ⟨info, hinfo, hsub, hlead⟩ := hquagga (fun h => hother (h ▸ hmac.symm))
      (hs.quaggaMac _ hbound.symm) ⟨_, hhost, hip⟩
    refine follows_of_plan rfl fun cp hin ip hcontains => ?_
    obtain rfl := hs.quaggaMac _ hsrc
    -- the /24 of the source is inside the route, so the plan at the host is this next hop
    exact .toNextHop hinfo hlead (hsub ip hcontains)
      (.inr ⟨_, hsees.hosts hhost, (Finset.mem_singleton.mp hin).symm⟩)

theorem implements_init : D.Implements State.init := by
  constructor <;> simp [State.init]

/-- One admitted event: the state keeps to the plan. -/
theorem Implements.next (hs : D.Implements s) {e : Event} (he : D.Admits services e) :
    D.Implements (VRouter.next services s e) := by
  cases e with
  | config network e =>
    rw [VRouter.next]
    rcases finalState_event services network s e with h | ⟨config, hread, h⟩
    · rwa [h]
    · have hconf := he.2 config hread
      refine ⟨?_, ?_, ?_, fun sub hsub => ?_⟩
      · rcases h.quaggaMac with h | h <;> rw [h]
        exacts [hs.quaggaMac, hconf.quaggaMac]
      · rcases h.virtualMac with h | h <;> rw [h]
        exacts [hs.virtualMac, hconf.virtualMac]
      · rcases h.peersIp with h | h <;> rw [h]
        exacts [hs.peersIp, hconf.peersIp]
      · rcases h.of_mem hsub with hsub | hreq
        · exact hs.follows sub hsub
        · exact follows_configRequest he.1 hconf hreq
  | packetIn network inPkt =>
    rw [VRouter.next]
    rcases finalState_process services network s inPkt with h | ⟨ipv4Pkt, hpay, -, h⟩
    · rwa [h]
    · refine ⟨h.quaggaMac ▸ hs.quaggaMac, h.virtualMac ▸ hs.virtualMac, h.peersIp ▸ hs.peersIp,
        fun sub hsub => ?_⟩
      rcases h.of_mem hsub with hsub | hreq
      · exact hs.follows sub hsub
      · exact follows_packetRequest hs he hpay hreq

/-- Intents that follow one plan do not conflict, if the plan is a function. -/
theorem Implements.conflictFree (hs : D.Implements s) (hagree : D.HostsAgree) :
    ConflictFree s := by
  intro sub hsub sub' hsub' cp eth hacc hacc'
  obtain ⟨ipv4Pkt, hpay, hplan⟩ := hs.follows sub hsub cp eth hacc
  obtain ⟨ipv4Pkt', hpay', hplan'⟩ := hs.follows sub' hsub' cp eth hacc'
  obtain rfl : ipv4Pkt = ipv4Pkt' := Ethernet.Payload.ipv4.inj (hpay.symm.trans hpay')
  exact hplan.functional (fun _ => hagree) hplan'

end Deployment

/-- **No conflicting intents.** In every state of a run of configuration events and packet-ins in
a deployment whose subnets of hosts have one host each, any two submitted intents that take the
same frame at the same point agree on the egress point and on the addresses they rewrite. -/
theorem conflictFree_of_admits (services : Services) (D : Deployment) (hagree : D.HostsAgree)
    (es : List Event) (hes : ∀ e ∈ es, D.Admits services e) :
    ∀ es', es' <+: es → ConflictFree (run (next services) State.init es') := by
  intro es' hp
  have himpl : D.Implements (run (next services) State.init es') :=
    (along_of_forall hes).run_invariant_throughout (fun s e hs he => hs.next he)
      Deployment.implements_init es' hp
  exact himpl.conflictFree hagree

/-- The deployed configuration with the one host `h01`. -/
def deployedAlone : Deployment where
  quaggaCp := ⟨⟨2⟩, ⟨2⟩⟩
  quaggaMac := ⟨0x9e685b4b7caf⟩
  virtualMac := ⟨1⟩
  peersIp := [⟨0xac1e0102⟩, ⟨0xac1e0202⟩, ⟨0xac1e0302⟩]
  network := deployedNetwork [h01]
  speaker_not_peer := by decide
  speaker_not_egress := by decide
  speaker_not_host := by decide
  host_not_peer := by decide
  host_not_egress := by decide
  peers_agree := by decide
  routes_agree := by decide
  subnets_routes := by decide
  subnets_hosts := by decide
  routes_hosts := by decide

theorem deployedAlone_hostsAgree : deployedAlone.HostsAgree := by
  unfold Deployment.HostsAgree
  decide

theorem deployedAlone_sees : deployedAlone.Sees (deployedNetwork [h01]) :=
  ⟨rfl, List.Subset.refl _, List.Subset.refl _⟩

theorem deployedAlone_admits_config :
    deployedAlone.Admits deployed (.config (deployedNetwork [h01]) deployedEvent) := by
  refine ⟨deployedAlone_sees, fun config hread => ?_⟩
  obtain rfl : deployedConfig = config := Option.some.inj hread
  exact ⟨by decide, by decide, by decide, by decide⟩

theorem deployedAlone_admits_packet :
    deployedAlone.Admits deployed (.packetIn (deployedNetwork [h01]) deployedPacket) := by
  refine ⟨deployedAlone_sees, fun ipv4Pkt hpay => ?_⟩
  obtain rfl := Ethernet.Payload.ipv4.inj hpay
  exact ⟨fun _ => ⟨⟨h01, by decide, by decide, by decide, by decide⟩, by decide⟩,
    fun hother => absurd rfl hother⟩

/-- The deployed configuration, a packet of `h01` to the first edge router, and a packet of the
second edge router to `h01`. -/
theorem conflictFree_of_admits_alone :
    ConflictFree (run (next deployed) State.init
      [.config (deployedNetwork [h01]) deployedEvent,
        .packetIn (deployedNetwork [h01]) deployedPacket,
        .packetIn (deployedNetwork [h01]) ⟨⟨⟨2⟩, ⟨4⟩⟩, ⟨⟨0xe2⟩, ⟨0x9e685b4b7caf⟩,
          .ipv4 ⟨⟨0xc0a83402⟩, ⟨0xc0a83201⟩, .udp 53 4000⟩⟩⟩]) := by
  refine conflictFree_of_admits deployed deployedAlone deployedAlone_hostsAgree _ ?_ _
    (List.prefix_refl _)
  simp only [List.mem_cons, List.not_mem_nil, or_false, forall_eq_or_imp, forall_eq]
  refine ⟨deployedAlone_admits_config, deployedAlone_admits_packet, deployedAlone_sees,
    fun ipv4Pkt hpay => ?_⟩
  obtain rfl := Ethernet.Payload.ipv4.inj hpay
  refine ⟨fun h => absurd h (by decide), fun _ _ _ => ?_⟩
  exact ⟨⟨IpPrefix.valueOf ⟨0xc0a83400⟩ 24, some ⟨⟨0xac1e0202⟩, ⟨0xe2⟩⟩⟩, by decide,
    fun ip hip => hip, by decide⟩

/-- **Reverse intents that conflict.** After one packet of each of the two hosts of the deployed
topology to the subnet of an edge router, the two reverse intents take the same packets, one to
`h01` and one to `h02`. -/
theorem reverse_intents_conflict :
    ¬ ConflictFree (run (next deployed) State.init
      [.config (deployedNetwork [h01, h02]) deployedEvent,
        .packetIn (deployedNetwork [h01, h02]) (packetFrom h01 ⟨0xc0a83201⟩ ⟨0xc0a83302⟩),
        .packetIn (deployedNetwork [h01, h02]) (packetFrom h02 ⟨0xc0a83202⟩ ⟨0xc0a83302⟩)]) := by
  intro hfree
  have hsame := hfree
    ⟨.sdnExternalReverse, .pointToPoint (sdnExternalIntent deployed ⟨⟨2⟩, ⟨3⟩⟩ h01.location
      (IpPrefix.valueOf ⟨0xc0a83201⟩ 24) ⟨1⟩ h01.mac)⟩ (by decide)
    ⟨.sdnExternalReverse, .pointToPoint (sdnExternalIntent deployed ⟨⟨2⟩, ⟨3⟩⟩ h02.location
      (IpPrefix.valueOf ⟨0xc0a83202⟩ 24) ⟨1⟩ h02.mac)⟩ (by decide) ⟨⟨2⟩, ⟨3⟩⟩
    ⟨⟨0xe1⟩, ⟨0x9e685b4b7caf⟩, .ipv4 ⟨⟨0xc0a83302⟩, ⟨0xc0a83201⟩, .udp 53 4000⟩⟩ (by decide)
    (by decide)
  exact absurd hsame (by decide)

end VRouter
