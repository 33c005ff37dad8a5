import OnosApps.VRouter.NextHop
import OnosApps.VRouter.Reconfiguration

/-!
# The virtual router: when a packet-in returns

A call for a packet dereferences what it looks up: the fields of the configuration, the interfaces
of the peers and of the next hop, and the end points of the intents it builds. The configuration
assigns the fields in a fixed order, so that in every state that can be reached the addresses of the
router are there whenever the peers are. What is left are conditions on the network and on the
packet.

## Main definitions

* `InOrder`: the fields are assigned in their order, and the flag comes after them
* `Serves`: the condition on the network and the packet under which a call returns

## Main results

* `inOrder_run`: the fields after a run
* `process_returns_iff_serves`: when a call for a packet returns
* `stray_packet_throws`: a packet that no route contains
-/

namespace VRouter

open Onos Runs

/-! ## The fields of the configuration -/

/-- A configuration event assigns the address of the speaker before the virtual address and that
before the peers, and the flag is only set when the peers are there. -/
structure InOrder (s : State) : Prop where
  quaggaMac : s.virtualMac.isSome → s.quaggaMac.isSome
  virtualMac : s.peersIp.isSome → s.virtualMac.isSome
  peersIp : s.hasBuildTransitIntents = true → s.peersIp.isSome

section Fields

variable {services : Services} {s : State}

/-- An event that fails midway has assigned the first fields. -/
theorem InOrder.assigned (hs : InOrder s) (config : QuaggaConfig) :
    InOrder (assigned services config s) := by
  obtain ⟨hmac, hvirtual, hpeers⟩ := hs
  unfold VRouter.assigned assignments
  cases config.quaggaCp services with
  | none => exact ⟨hmac, hvirtual, hpeers⟩
  | some quaggaCp =>
    cases config.quaggaMac services with
    | none => exact ⟨hmac, hvirtual, hpeers⟩
    | some quaggaMac =>
      cases config.virtualIp services with
      | none => exact ⟨fun _ => rfl, hvirtual, hpeers⟩
      | some virtualIp =>
        cases config.virtualMac services with
        | none => exact ⟨fun _ => rfl, hvirtual, hpeers⟩
        | some virtualMac =>
          cases config.peersIp services with
          | none => exact ⟨fun _ => rfl, fun _ => rfl, hpeers⟩
          | some peersIp => exact ⟨fun _ => rfl, fun _ => rfl, fun _ => rfl⟩

theorem InOrder.built (hs : InOrder s) {network : Network} (subs : List Submission) :
    InOrder (s.built (flagAfter network s) subs) := by
  refine ⟨hs.quaggaMac, hs.virtualMac, fun hflag => ?_⟩
  by_cases hbuilt : s.hasBuildTransitIntents = true
  · exact hs.peersIp hbuilt
  · obtain ⟨⟨peersIp, hpeers, -⟩, -⟩ := (flagAfter_iff (Bool.eq_false_iff.mpr hbuilt)).mp hflag
    exact Option.isSome_iff_exists.mpr ⟨peersIp, hpeers⟩

theorem InOrder.next (hs : InOrder s) (e : Event) : InOrder (next services s e) := by
  cases e with
  | config network e =>
    rw [VRouter.next]
    cases hread : e.read with
    | none =>
      rw [QuaggaConfigListener.event, hread]
      exact hs
    | some config =>
      rw [finalState_event_eq hread]
      have hassigned : InOrder (VRouter.assigned services config s) := hs.assigned config
      exact ⟨hassigned.quaggaMac, hassigned.virtualMac, hassigned.peersIp⟩
  | packetIn network inPkt =>
    rw [VRouter.next]
    by_cases hbound : ∃ ipv4Pkt, inPkt.parsed.payload = .ipv4 ipv4Pkt ∧
        s.RouterBound inPkt.parsed.destinationMAC
    · obtain ⟨ipv4Pkt, hpay, hbound⟩ := hbound
      rw [finalState_process_eq services network hpay hbound]
      exact hs.built _
    · rw [finalState_process_of_not_routerBound fun ipv4Pkt hpay h => hbound ⟨ipv4Pkt, hpay, h⟩]
      exact hs

variable (services) in
/-- **The fields after a run**, whatever configurations were rejected in it. -/
theorem inOrder_run (es : List Event) : InOrder (run (VRouter.next services) State.init es) :=
  run_invariant (fun _ e hs => hs.next e) ⟨by simp [State.init], by simp [State.init],
    by simp [State.init]⟩ es

end Fields

/-! ## The attempts of a call -/

section Call

variable {services : Services} {network : Network} {s : State} {inPkt : InboundPacket}
  {ipv4Pkt : IPv4}

theorem sdnExternalAttempt_ne_none_iff {kind : IntentKind} {ingressPoint egressPoint : ConnectPoint}
    {matchDstIp : IpPrefix} {newSrcMac : Option MacAddress} {newDstMac : MacAddress}
    (hmac : newSrcMac.isSome) :
    none ≠ sdnExternalAttempt services kind ingressPoint egressPoint matchDstIp newSrcMac
        newDstMac ↔
      services.checks.pointToPoint ingressPoint egressPoint := by
  obtain ⟨mac, rfl⟩ := Option.isSome_iff_exists.mp hmac
  rw [ne_comm, Option.ne_none_iff_exists']
  simp [sdnExternalAttempt_eq_some]

/-- The intents between two points, in both directions, are built if one of them is. -/
theorem none_notMem_pair_iff {kind kind' : IntentKind} {p q : ConnectPoint} {dst dst' : IpPrefix}
    {src src' : Option MacAddress} {mac mac' : MacAddress} (hsrc : src.isSome)
    (hsrc' : src'.isSome) :
    none ∉ [sdnExternalAttempt services kind p q dst src mac,
        sdnExternalAttempt services kind' q p dst' src' mac'] ↔
      services.checks.pointToPoint p q := by
  rw [List.mem_pair, not_or, ← ne_eq, ← ne_eq, sdnExternalAttempt_ne_none_iff hsrc,
    sdnExternalAttempt_ne_none_iff hsrc']
  exact and_iff_left_of_imp services.checks.pointToPoint_comm

/-- There is a port at the next hop, and the builder accepts an intent to it from the port of the
packet. -/
def Connects (services : Services) (inPkt : InboundPacket)
    (o : Option (ConnectPoint × MacAddress)) : Prop :=
  ∃ a ∈ o, services.checks.pointToPoint inPkt.receivedFrom a.1

theorem none_notMem_sdnExternalAttempts_iff (hmac : s.quaggaMac.isSome)
    (hvirtual : s.virtualMac.isSome) {nextHop : NextHop} :
    none ∉ sdnExternalAttempts services network s inPkt ipv4Pkt nextHop ↔
      Connects services inPkt (network.hopTo nextHop) := by
  cases hp : network.pointOf nextHop.nextHopIp with
  | none =>
    rw [Network.hopTo, hp]
    rw [Network.pointOf, Option.map_eq_none_iff] at hp
    simp [sdnExternalAttempts, Connects, hp]
  | some p =>
    rw [sdnExternalAttempts_of_pointOf hp, none_notMem_pair_iff hmac hvirtual, Network.hopTo, hp]
    simp [Connects]

theorem none_notMem_hostsAttempts_iff (hmac : s.quaggaMac.isSome) (hvirtual : s.virtualMac.isSome)
    {hosts : List Host} :
    none ∉ hosts.flatMap (hostAttempts services s inPkt ipv4Pkt) ↔
      ∀ host ∈ hosts, services.checks.pointToPoint inPkt.receivedFrom host.location := by
  simp only [List.mem_flatMap, not_exists, not_and]
  exact forall₂_congr fun host _ => none_notMem_pair_iff hvirtual hmac

/-- In a state with the fields in order, a network whose routes lead to ports lets a call through
the transit block exactly when the peers are at ports and leave an ingress point. -/
theorem InOrder.passesTransit_iff (hs : InOrder s)
    (hroutes : ∀ info ∈ network.routes, (network.leadsTo info).isSome) :
    PassesTransit network s ↔ (s.hasBuildTransitIntents = false →
      PeersAtPorts network s ∧ Admits network (s.peerPoints network) network.routes) := by
  rw [PassesTransit, or_iff_not_imp_left, Bool.not_eq_true]
  refine imp_congr_right fun _ => and_congr_right fun hpeers => ?_
  obtain ⟨peersIp, hsome, -⟩ := hpeers
  have hmac : s.quaggaMac.isSome := hs.quaggaMac (hs.virtualMac (by rw [hsome, Option.isSome_some]))
  constructor
  · rintro (hempty | ⟨-, hadmits, -⟩)
    · rw [Admits, hempty]
      simp
    · exact hadmits
  · exact fun hadmits => .inr ⟨hmac, hadmits, hroutes⟩

/-- After the transit block, both addresses of the router are there. -/
theorem InOrder.isSome_of_passesTransit (hs : InOrder s) (hpass : PassesTransit network s) :
    s.quaggaMac.isSome ∧ s.virtualMac.isSome := by
  have hpeers : s.peersIp.isSome := by
    rcases hpass with hbuilt | ⟨⟨peersIp, hsome, -⟩, -⟩
    · exact hs.peersIp hbuilt
    · rw [hsome, Option.isSome_some]
  exact ⟨hs.quaggaMac (hs.virtualMac hpeers), hs.virtualMac hpeers⟩

variable (services network s inPkt) in
/-- The condition for a router-bound packet to `dstIp`. If the transit intents are not built yet,
the peers are configured and at ports, one of which is not that of the first route. For a packet to
the virtual address, there is a port at the next hop that the lookup leaves; for one to the speaker,
this is asked of the hosts with the address. The builder accepts an intent from the port of the
packet to that port. -/
structure Serves (dstIp : Ip4Address) : Prop where
  transit : s.hasBuildTransitIntents = false →
    PeersAtPorts network s ∧ Admits network (s.peerPoints network) network.routes
  external : some inPkt.parsed.destinationMAC = s.virtualMac →
    ByLookup network s dstIp (Connects services inPkt)
  internal : some inPkt.parsed.destinationMAC ≠ s.virtualMac →
    ∀ host ∈ network.getHostsByIp dstIp,
      services.checks.pointToPoint inPkt.receivedFrom host.location

/-- The attempts for the flow of a packet, once both addresses of the router are there. -/
theorem none_notMem_flowAttempts_iff (hmac : s.quaggaMac.isSome) (hvirtual : s.virtualMac.isSome)
    (hresolved : ∀ info ∈ network.routes, info.bestRoute.isSome)
    (hbound : s.RouterBound inPkt.parsed.destinationMAC) :
    none ∉ flowAttempts services network s inPkt ipv4Pkt (hopAfter network s) ↔
      (some inPkt.parsed.destinationMAC = s.virtualMac →
        ByLookup network s ipv4Pkt.destinationAddress (Connects services inPkt)) ∧
      (some inPkt.parsed.destinationMAC ≠ s.virtualMac →
        ∀ host ∈ network.getHostsByIp ipv4Pkt.destinationAddress,
          services.checks.pointToPoint inPkt.receivedFrom host.location) := by
  obtain ⟨nextHop, hlookup⟩ := Option.isSome_iff_exists.mp
    (lookup_isSome hresolved ipv4Pkt.destinationAddress (hopAfter network s))
  rw [flowAttempts, hlookup, Option.elim_some, byLookup_iff hresolved hlookup]
  by_cases hdst : some inPkt.parsed.destinationMAC = s.virtualMac
  · rw [if_pos hdst, none_notMem_sdnExternalAttempts_iff hmac hvirtual]
    simp [hdst]
  · rw [if_neg hdst, if_pos (hbound.resolve_left hdst), none_notMem_hostsAttempts_iff hmac hvirtual]
    simp [hdst]

theorem InOrder.none_notMem_callAttempts_iff (hs : InOrder s)
    (hroutes : ∀ info ∈ network.routes, (network.leadsTo info).isSome)
    (hbound : s.RouterBound inPkt.parsed.destinationMAC) :
    none ∉ callAttempts services network s inPkt ipv4Pkt ↔
      Serves services network s inPkt ipv4Pkt.destinationAddress := by
  have hresolved : ∀ info ∈ network.routes, info.bestRoute.isSome := fun info hinfo =>
    Option.isSome_of_isSome_bind (hroutes info hinfo)
  rw [callAttempts, List.mem_append, not_or, none_notMem_blockAttempts_iff services]
  by_cases hpass : PassesTransit network s
  · obtain ⟨hmac, hvirtual⟩ := hs.isSome_of_passesTransit hpass
    rw [and_iff_right hpass, none_notMem_flowAttempts_iff hmac hvirtual hresolved hbound]
    refine ⟨fun h => ⟨(hs.passesTransit_iff hroutes).mp hpass, h.1, h.2⟩, fun h => ?_⟩
    exact ⟨h.external, h.internal⟩
  · exact ⟨fun h => absurd h.1 hpass,
      fun h => absurd ((hs.passesTransit_iff hroutes).mpr h.transit) hpass⟩

end Call

/-- **When a packet-in returns.** Let every route lead to a port. After any run of configuration
events, rejected ones included, and packet-ins, a call for an IPv4 packet returns exactly when the
packet is not bound for the router, or the network serves it. -/
theorem process_returns_iff_serves (services : Services) (es : List Event) {network : Network}
    {inPkt : InboundPacket} {ipv4Pkt : IPv4}
    (hroutes : ∀ info ∈ network.routes, (network.leadsTo info).isSome)
    (hpay : inPkt.parsed.payload = .ipv4 ipv4Pkt) :
    (∃ b s', process services network inPkt (run (next services) State.init es) = .ok b s') ↔
      ((run (next services) State.init es).RouterBound inPkt.parsed.destinationMAC →
        Serves services network (run (next services) State.init es) inPkt
          ipv4Pkt.destinationAddress) := by
  have hs := inOrder_run services es
  generalize run (next services) State.init es = s at hs
  by_cases hbound : s.RouterBound inPkt.parsed.destinationMAC
  · rw [process_returns_iff services network hpay hbound,
      hs.none_notMem_callAttempts_iff hroutes hbound]
    simp [hbound]
  · simp [process, hpay, hbound]

/-- The first packet to a network that an edge router announces is served. -/
theorem deployed_packet_returns :
    ∃ b s', process deployed (deployedWith 3) deployedPacket
      (run (next deployed) State.init [.config (deployedWith 0) deployedEvent]) = .ok b s' := by
  refine (process_returns_iff_serves deployed _ (deployedWith_valid 3).routes
    (show deployedPacket.parsed.payload = .ipv4 ⟨⟨0xc0a83201⟩, ⟨0xc0a83302⟩, .udp 4000 53⟩
      from rfl)).mpr fun _ => ⟨fun _ => ⟨⟨deployedPeers, rfl, by decide⟩, ?_⟩, fun _ => ?_, ?_⟩
  · unfold Admits
    decide
  · have hfound : (deployedWith 3).Found24 ⟨0xc0a83302⟩ :=
      ⟨⟨IpPrefix.valueOf ⟨0xc0a83300⟩ 24, some ⟨⟨0xac1e0102⟩, ⟨0xe1⟩⟩⟩, by decide, by decide⟩
    refine ⟨fun info hinfo => ?_, fun hnot => absurd hfound hnot, fun hnot => absurd hfound hnot⟩
    exact (show ∀ info ∈ (deployedWith 3).routes, ∃ a ∈ (deployedWith 3).leadsTo info,
      deployed.checks.pointToPoint deployedPacket.receivedFrom a.1 by decide) info hinfo.mem.1
  · intro hother
    exact absurd (by decide) hother

/-- **A packet that no route contains**, once the transit intents are built: there is no interface
with the default next hop, and the call throws. -/
theorem stray_packet_throws :
    (∀ info ∈ (deployedWith 3).routes, ((deployedWith 3).leadsTo info).isSome) ∧
      ∃ s', process deployed (deployedWith 3) strayPacket (run (next deployed) State.init
        [.config (deployedWith 0) deployedEvent, .packetIn (deployedWith 3) deployedPacket]) =
          .error .nullPointer s' :=
  ⟨by decide, _, rfl⟩

end VRouter
