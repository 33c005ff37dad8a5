import OnosApps.Runs.Attempts
import OnosApps.VRouter.Submissions

/-!
# The virtual router: what the handlers attempt

Outside the transit block, the handlers read the configuration, the packet and the network, and
try to submit intents one after the other; the first intent that cannot be built ends the call.
This module gives the list of these attempts for the flow of a packet and for a configuration
event, and with it exactly what a call leaves behind, whether it returns or throws.

## Main definitions

* `State.log`: the submitted intents, as a log of the state
* `submittedBy`: the intents that an event submits
* `Network.lookup`: the outcome of the route lookup
* `flowAttempts`: the attempts for the flow of a packet
* `bgpAttempts`, `eventAttempts`: the attempts of a configuration event

## Main results

* `tries_flowTraffic`: the flow of a packet
* `tries_event`: a configuration event, with its assignments
-/

namespace VRouter

open Onos Runs

/-- The submitted intents, as a log of the state. -/
def State.log : Log State Submission where
  append s subs := { s with submitted := s.submitted ++ subs }
  append_nil s := by simp
  append_append s subs subs' := by simp

/-- The intents that an event submits. -/
def submittedBy (services : Services) (s : State) (e : Event) : List Submission :=
  (next services s e).submitted.drop s.submitted.length

/-- Events only append to the submitted intents. -/
theorem submitted_next (services : Services) (s : State) (e : Event) :
    (next services s e).submitted = s.submitted ++ submittedBy services s e := by
  obtain ⟨new, hnew, -⟩ := submitted_appended services s e
  rw [submittedBy, hnew, List.drop_left]

theorem submittedBy_eq {services : Services} {s : State} {e : Event} {new : List Submission}
    (h : (next services s e).submitted = s.submitted ++ new) : submittedBy services s e = new := by
  rw [submittedBy, h, List.drop_left]

theorem request_of_mem_submittedBy {services : Services} {s : State} {e : Event} {sub : Submission}
    (hsub : sub ∈ submittedBy services s e) : EventRequest services s e sub := by
  obtain ⟨new, hnew, hall⟩ := submitted_appended services s e
  exact hall sub (submittedBy_eq hnew ▸ hsub)

/-! ## The intent builders -/

section Builders

variable (services : Services)

/-- The attempt to submit a point-to-point intent. -/
def pointToPointAttempt (kind : IntentKind) (intent : PointToPointIntent) : Option Submission :=
  if services.checks.pointToPoint intent.filteredIngressPoint intent.filteredEgressPoint then
    some ⟨kind, .pointToPoint intent⟩
  else none

/-- The attempt of `buildSDNExternalIntent`. -/
def sdnExternalAttempt (kind : IntentKind) (ingressPoint egressPoint : ConnectPoint)
    (matchDstIp : IpPrefix) (newSrcMac : Option MacAddress) (newDstMac : MacAddress) :
    Option Submission :=
  newSrcMac.bind fun newSrcMac => pointToPointAttempt services kind
    (sdnExternalIntent services ingressPoint egressPoint matchDstIp newSrcMac newDstMac)

variable {services} in
theorem sdnExternalAttempt_eq_some {kind : IntentKind} {ingressPoint egressPoint : ConnectPoint}
    {matchDstIp : IpPrefix} {newSrcMac : Option MacAddress} {newDstMac : MacAddress}
    {sub : Submission} :
    sdnExternalAttempt services kind ingressPoint egressPoint matchDstIp newSrcMac newDstMac =
        some sub ↔
      services.checks.pointToPoint ingressPoint egressPoint ∧ ∃ mac, newSrcMac = some mac ∧
        sub = ⟨kind, .pointToPoint
          (sdnExternalIntent services ingressPoint egressPoint matchDstIp mac newDstMac)⟩ := by
  cases newSrcMac with
  | none => simp [sdnExternalAttempt]
  | some mac =>
    rw [sdnExternalAttempt, Option.bind_some, pointToPointAttempt]
    constructor
    · intro h
      split_ifs at h with hcheck
      exact ⟨hcheck, mac, rfl, (Option.some.inj h).symm⟩
    · rintro ⟨hcheck, _, hmac, rfl⟩
      rw [← Option.some.inj hmac]
      exact if_pos hcheck

theorem tries_submit (kind : IntentKind) (intent : Intent) :
    Tries State.log (submit kind intent) [some ⟨kind, intent⟩] := by
  intro s
  exact ⟨fun _ => ⟨(), rfl⟩, fun h => by simp at h⟩

theorem tries_submitPointToPoint (kind : IntentKind) (intent : PointToPointIntent) :
    Tries State.log (submitPointToPoint services kind intent)
      [pointToPointAttempt services kind intent] := by
  unfold submitPointToPoint pointToPointAttempt
  split_ifs
  · exact tries_submit kind _
  · exact tries_throw _

theorem tries_buildSDNExternalIntent (kind : IntentKind) (ingressPoint egressPoint : ConnectPoint)
    (matchDstIp : IpPrefix) (newSrcMac : Option MacAddress) (newDstMac : MacAddress) :
    Tries State.log (buildSDNExternalIntent services kind ingressPoint egressPoint matchDstIp
        newSrcMac newDstMac)
      [sdnExternalAttempt services kind ingressPoint egressPoint matchDstIp newSrcMac newDstMac] :=
  (reads_orThrow _ newSrcMac).bind_try fun _ => tries_submitPointToPoint services kind _

end Builders

/-! ## The flow of a packet -/

/-- The route lookup in one table. -/
def lookupTable (dstIp : Ip4Address) (nextHop : NextHop) (table : List RouteInfo) :
    Option NextHop :=
  match table.find? (·.ipPrefix = IpPrefix.valueOf dstIp 24) with
  | none => some nextHop
  | some info => info.bestRoute.map fun route => ⟨route.nextHop, route.nextHopMac⟩

/-- The outcome of the route lookup, which starts with `nextHop`; none if it throws. -/
def Network.lookup (network : Network) (dstIp : Ip4Address) (nextHop : NextHop) :
    Option NextHop :=
  network.routeTables.foldlM (lookupTable dstIp) nextHop

section Flow

variable (services : Services) (network : Network) (s : State) (inPkt : InboundPacket)
  (ipv4Pkt : IPv4)

/-- The attempts of the SDN-external branch. -/
def sdnExternalAttempts (nextHop : NextHop) : List (Option Submission) :=
  (network.getMatchingInterface nextHop.nextHopIp).elim [none] fun intf =>
    [sdnExternalAttempt services .sdnExternalForward inPkt.receivedFrom intf.connectPoint
        (IpPrefix.valueOf ipv4Pkt.destinationAddress 24) s.quaggaMac nextHop.nextHopMac,
      sdnExternalAttempt services .sdnExternalReverse intf.connectPoint inPkt.receivedFrom
        (IpPrefix.valueOf ipv4Pkt.sourceAddress 24) s.virtualMac inPkt.parsed.sourceMAC]

/-- The attempts for one host in the External-SDN branch. -/
def hostAttempts (host : Host) : List (Option Submission) :=
  [sdnExternalAttempt services .externalSdnForward inPkt.receivedFrom host.location
      (IpPrefix.valueOf ipv4Pkt.destinationAddress 24) s.virtualMac host.mac,
    sdnExternalAttempt services .externalSdnReverse host.location inPkt.receivedFrom
      (IpPrefix.valueOf ipv4Pkt.sourceAddress 24) s.quaggaMac inPkt.parsed.sourceMAC]

/-- The attempts for the flow of a packet, after a transit block that leaves `nextHop`. -/
def flowAttempts (nextHop : NextHop) : List (Option Submission) :=
  (network.lookup ipv4Pkt.destinationAddress nextHop).elim [none] fun nextHop =>
    if some inPkt.parsed.destinationMAC = s.virtualMac then
      sdnExternalAttempts services network s inPkt ipv4Pkt nextHop
    else if some inPkt.parsed.destinationMAC = s.quaggaMac then
      (network.getHostsByIp ipv4Pkt.destinationAddress).flatMap
        (hostAttempts services s inPkt ipv4Pkt)
    else []

theorem reads_scanTable (dstIp : Ip4Address) (nextHop : NextHop) (table : List RouteInfo) :
    Reads (scanTable dstIp nextHop table : Handler NextHop) (lookupTable dstIp nextHop table) := by
  unfold scanTable lookupTable
  cases table.find? (·.ipPrefix = IpPrefix.valueOf dstIp 24) with
  | none => exact reads_pure nextHop
  | some info => exact (reads_orThrow _ info.bestRoute).map _

theorem reads_findNextHop (dstIp : Ip4Address) (nextHop : NextHop) :
    Reads (findNextHop network dstIp nextHop : Handler NextHop)
      (network.lookup dstIp nextHop) :=
  reads_foldlM (reads_scanTable dstIp) network.routeTables nextHop

theorem tries_sdnExternal (nextHop : NextHop) :
    Tries State.log (sdnExternal services network s inPkt ipv4Pkt nextHop)
      (sdnExternalAttempts services network s inPkt ipv4Pkt nextHop) :=
  (reads_orThrow _ _).bind_tries fun _ =>
    (tries_buildSDNExternalIntent services _ _ _ _ _ _).bind fun _ =>
      tries_buildSDNExternalIntent services _ _ _ _ _ _

theorem tries_connectHost (host : Host) :
    Tries State.log (connectHost services s inPkt ipv4Pkt host)
      (hostAttempts services s inPkt ipv4Pkt host) :=
  (tries_buildSDNExternalIntent services _ _ _ _ _ _).bind fun _ =>
    tries_buildSDNExternalIntent services _ _ _ _ _ _

/-- **The flow of a packet.** After the transit block, a call makes the attempts of its flow. -/
theorem tries_flowTraffic (nextHop : NextHop) :
    Tries State.log (flowTraffic services network s inPkt ipv4Pkt nextHop)
      (flowAttempts services network s inPkt ipv4Pkt nextHop) :=
  (reads_findNextHop network _ nextHop).bind_tries fun hop =>
    tries_ite (tries_sdnExternal services network s inPkt ipv4Pkt hop)
      (tries_ite (tries_forM (tries_connectHost services s inPkt ipv4Pkt) _) (tries_pure _))

end Flow

/-! ## A configuration event -/

section Config

variable (services : Services) (network : Network) (config : QuaggaConfig)

/-- The attempts for one peer. -/
def peerAttempts (quaggaCp : ConnectPoint) (peerIp : Ip4Address) : List (Option Submission) :=
  (network.getMatchingInterface peerIp).elim [none] fun intf =>
    [pointToPointAttempt services .bgpOut
        (bgpIntent services quaggaCp intf.connectPoint (IpPrefix.valueOf peerIp 24)),
      intf.ipAddressesList.head?.bind fun address => pointToPointAttempt services .bgpIn
        (bgpIntent services intf.connectPoint quaggaCp address.subnetAddress)]

/-- The attempts for the BGP sessions of a configuration. -/
def bgpAttempts : List (Option Submission) :=
  match config.quaggaCp services, config.peersIp services with
  | some quaggaCp, some peersIp => peersIp.flatMap (peerAttempts services network quaggaCp)
  | _, _ => []

/-- The assignments of a configuration event, in their order. -/
def assignments : List (Option (State → State)) :=
  [(config.quaggaCp services).map fun quaggaCp s => { s with quaggaCp := some quaggaCp },
    (config.quaggaMac services).map fun quaggaMac s => { s with quaggaMac := some quaggaMac },
    (config.virtualIp services).map fun virtualIp s => { s with virtualIp := some virtualIp },
    (config.virtualMac services).map fun virtualMac s => { s with virtualMac := some virtualMac },
    (config.peersIp services).map fun peersIp s => { s with peersIp := some peersIp }]

/-- What a configuration event attempts: the assignments, then the BGP sessions. -/
def eventAttempts : List (Option (State → State)) :=
  assignments services config ++
    (bgpAttempts services network config).map (Option.map State.log.update)

theorem tries_connectPeer (quaggaCp : ConnectPoint) (peerIp : Ip4Address) :
    Tries State.log (connectPeer services network quaggaCp peerIp)
      (peerAttempts services network quaggaCp peerIp) :=
  (reads_orThrow _ _).bind_tries fun _ =>
    (tries_submitPointToPoint services _ _).bind fun _ =>
      (reads_orThrow _ _).bind_try fun _ => tries_submitPointToPoint services _ _

/-- **A configuration event.** The listener assigns each field as soon as it is parsed, and then
connects the peers; the first of these that fails ends the call. -/
theorem tries_event {e : NetworkConfigEvent QuaggaConfig} (hread : e.read = some config) :
    Tries (Log.updates State) (QuaggaConfigListener.event services network e)
      (eventAttempts services network config) := by
  rw [QuaggaConfigListener.event, hread]
  refine (reads_orThrow _ _).bind_cons fun quaggaCp hcp => (tries_modify _).bind fun _ => ?_
  refine (reads_orThrow _ _).bind_cons fun quaggaMac _ => (tries_modify _).bind fun _ => ?_
  refine (reads_orThrow _ _).bind_cons fun virtualIp _ => (tries_modify _).bind fun _ => ?_
  refine (reads_orThrow _ _).bind_cons fun virtualMac _ => (tries_modify _).bind fun _ => ?_
  refine (reads_orThrow _ _).bind_cons fun peersIp hpeers => (tries_modify _).bind fun _ => ?_
  -- all five fields are there, and the loop over the peers is left
  rw [bgpAttempts, hcp, hpeers]
  exact (tries_forM (tries_connectPeer services network quaggaCp) peersIp).updates

end Config

end VRouter
