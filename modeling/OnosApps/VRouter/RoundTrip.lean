import OnosApps.VRouter.PacketCall

/-!
# The virtual router: a flow and its answers

For the flow of a packet, the intents are submitted in pairs: one takes the packet to the next
hop or to the host it is addressed to, the other takes the answers back. The two are built from
the same values in exchanged roles, so that an answer arrives at the port of the sender, with
the sender as its destination and the gateway the sender had addressed as its source.

## Main definitions

* `IsAnswer eth answer`: the answer of the receiver of a frame
* `RoundTrip F R q`: `F` takes the packet, and `R` takes the answers back
* `flowPairs`: the pairs of intents for the flow of a packet

## Main results

* `roundTrip_flowPair`: the intents of both branches are round trips
* `flow_pairs_round_trip`: what a call submits for the flow of its packet
-/

namespace VRouter

open Onos Runs

/-- The answer of the receiver of a frame: the addresses of both headers are exchanged. -/
def IsAnswer (eth answer : Ethernet) : Prop :=
  answer.sourceMAC = eth.destinationMAC ∧ answer.destinationMAC = eth.sourceMAC ∧
    ∃ p p', eth.payload = .ipv4 p ∧ answer.payload = .ipv4 p' ∧
      p'.sourceAddress = p.destinationAddress ∧ p'.destinationAddress = p.sourceAddress

/-- `F` takes the packet `q`. The answer to any packet between the same two addresses, as `F`
delivers it, is taken by `R` where `F` has delivered the packet; `R` delivers it at the port of
`q`, to the sender of `q` and from the gateway `q` was sent to. -/
def RoundTrip (F R : Intent) (q : InboundPacket) (ipv4Pkt : IPv4) : Prop :=
  F.Accepts q.receivedFrom q.parsed ∧
    ∀ eth p, eth.payload = .ipv4 p → p.sourceAddress = ipv4Pkt.sourceAddress →
      p.destinationAddress = ipv4Pkt.destinationAddress → F.Accepts q.receivedFrom eth →
      ∀ answer, IsAnswer (F.treatment.apply eth) answer →
        R.Accepts F.egressPoint answer ∧ R.egressPoint = q.receivedFrom ∧
          (R.treatment.apply answer).destinationMAC = q.parsed.sourceMAC ∧
          (R.treatment.apply answer).sourceMAC = q.parsed.destinationMAC

section Pairs

variable (services : Services) (q : InboundPacket) (ipv4Pkt : IPv4)

/-- The pair of intents between the port of `q` and `point`, where `q` is delivered to `dstMac`
with the source address `srcMac`. -/
def flowPair (forward reverse : IntentKind) (point : ConnectPoint) (srcMac dstMac : MacAddress) :
    Submission × Submission :=
  (⟨forward, .pointToPoint (sdnExternalIntent services q.receivedFrom point
      (IpPrefix.valueOf ipv4Pkt.destinationAddress 24) srcMac dstMac)⟩,
    ⟨reverse, .pointToPoint (sdnExternalIntent services point q.receivedFrom
      (IpPrefix.valueOf ipv4Pkt.sourceAddress 24) q.parsed.destinationMAC q.parsed.sourceMAC)⟩)

/-- The pairs of intents for the flow of `q`: one towards the next hop, or one for each host with
the destination address. If the new source address is not configured, no intent is built. -/
def flowPairs (network : Network) (s : State) (nextHop : NextHop) :
    List (Submission × Submission) :=
  (network.lookup ipv4Pkt.destinationAddress nextHop).elim [] fun nextHop =>
    if some q.parsed.destinationMAC = s.virtualMac then
      (network.pointOf nextHop.nextHopIp).toList.map fun point =>
        flowPair services q ipv4Pkt .sdnExternalForward .sdnExternalReverse point
          (s.quaggaMac.getD MacAddress.ZERO) nextHop.nextHopMac
    else if some q.parsed.destinationMAC = s.quaggaMac then
      (network.getHostsByIp ipv4Pkt.destinationAddress).map fun host =>
        flowPair services q ipv4Pkt .externalSdnForward .externalSdnReverse host.location
          (s.virtualMac.getD MacAddress.ZERO) host.mac
    else []

/-- The two intents of a pair, in the order of their submission. -/
def pairList (pair : Submission × Submission) : List Submission := [pair.1, pair.2]

variable {services q ipv4Pkt}

/-- **The intents of both branches** are a round trip, whatever the point and the addresses. -/
theorem roundTrip_flowPair (hpay : q.parsed.payload = .ipv4 ipv4Pkt) (forward reverse : IntentKind)
    (point : ConnectPoint) (srcMac dstMac : MacAddress) :
    RoundTrip (flowPair services q ipv4Pkt forward reverse point srcMac dstMac).1.intent
      (flowPair services q ipv4Pkt forward reverse point srcMac dstMac).2.intent q ipv4Pkt := by
  refine ⟨⟨Finset.mem_singleton_self _, ?_⟩, ?_⟩
  · exact matches_dstSelector.mpr ⟨ipv4Pkt, hpay, IpPrefix.contains_valueOf.mpr rfl⟩
  · rintro eth p heth hsrc - - answer ⟨-, -, p₁, p', hp₁, hp', -, hdst⟩
    -- the rewriting leaves the payload, so the answer is addressed to the sender of `q`
    obtain rfl : p = p₁ := Ethernet.Payload.ipv4.inj (heth.symm.trans hp₁)
    refine ⟨⟨Finset.mem_singleton_self _, ?_⟩, rfl, rfl, rfl⟩
    refine matches_dstSelector.mpr ⟨p', hp', IpPrefix.contains_valueOf.mpr ?_⟩
    rw [hdst, hsrc]

theorem roundTrip_of_mem_flowPairs (hpay : q.parsed.payload = .ipv4 ipv4Pkt) {network : Network}
    {s : State} {nextHop : NextHop} {pair : Submission × Submission}
    (h : pair ∈ flowPairs services q ipv4Pkt network s nextHop) :
    RoundTrip pair.1.intent pair.2.intent q ipv4Pkt := by
  unfold flowPairs at h
  cases hlookup : network.lookup ipv4Pkt.destinationAddress nextHop with
  | none => simp [hlookup] at h
  | some hop =>
    rw [hlookup, Option.elim_some] at h
    split_ifs at h
    · obtain ⟨point, -, rfl⟩ := List.mem_map.mp h
      exact roundTrip_flowPair hpay _ _ _ _ _
    · obtain ⟨host, -, rfl⟩ := List.mem_map.mp h
      exact roundTrip_flowPair hpay _ _ _ _ _
    · cases h

/-- Attempts at a pair, with the new source addresses as they are configured. -/
theorem attempts_flowPair {forward reverse : IntentKind} {point : ConnectPoint}
    {srcMac backMac : Option MacAddress} {dstMac : MacAddress}
    (hback : some q.parsed.destinationMAC = backMac) :
    List.Forall₂ (fun o w => ∀ w', o = some w' → w' = w)
      [sdnExternalAttempt services forward q.receivedFrom point
          (IpPrefix.valueOf ipv4Pkt.destinationAddress 24) srcMac dstMac,
        sdnExternalAttempt services reverse point q.receivedFrom
          (IpPrefix.valueOf ipv4Pkt.sourceAddress 24) backMac q.parsed.sourceMAC]
      (pairList (flowPair services q ipv4Pkt forward reverse point
        (srcMac.getD MacAddress.ZERO) dstMac)) := by
  refine .cons (fun sub hsub => ?_) (.cons (fun sub hsub => ?_) .nil)
  · obtain ⟨-, mac, hmac, rfl⟩ := sdnExternalAttempt_eq_some.mp hsub
    rw [hmac]
    rfl
  · obtain ⟨-, mac, hmac, rfl⟩ := sdnExternalAttempt_eq_some.mp hsub
    obtain rfl : q.parsed.destinationMAC = mac := Option.some.inj (hback.trans hmac)
    rfl

variable (services q ipv4Pkt) in
/-- The attempts for the flow of a packet are attempts at its pairs. -/
theorem succeeded_flowAttempts (network : Network) (s : State) (nextHop : NextHop) :
    succeeded (flowAttempts services network s q ipv4Pkt nextHop) <+:
        (flowPairs services q ipv4Pkt network s nextHop).flatMap pairList ∧
      (none ∉ flowAttempts services network s q ipv4Pkt nextHop →
        succeeded (flowAttempts services network s q ipv4Pkt nextHop) =
          (flowPairs services q ipv4Pkt network s nextHop).flatMap pairList) := by
  unfold flowAttempts flowPairs
  cases network.lookup ipv4Pkt.destinationAddress nextHop with
  | none => simp
  | some hop =>
    rw [Option.elim_some, Option.elim_some]
    split_ifs with hvirtual hquagga
    · unfold sdnExternalAttempts Network.pointOf
      cases network.getMatchingInterface hop.nextHopIp with
      | none => simp
      | some intf => exact succeeded_of_forall₂ (attempts_flowPair hvirtual)
    · refine succeeded_of_forall₂ ?_
      induction network.getHostsByIp ipv4Pkt.destinationAddress with
      | nil => exact .nil
      | cons host hosts ih => exact List.rel_append (attempts_flowPair hquagga) ih
    · exact ⟨List.prefix_rfl, fun _ => rfl⟩

end Pairs

/-- **The intent pair is a round trip.** A call for a router-bound packet submits the intents for
the flow of the packet pair by pair, all of them if it returns; in each pair, the first intent
takes the packet itself, and the second takes the answers back to its sender, from the gateway
the sender had addressed. -/
theorem flow_pairs_round_trip (services : Services) {network : Network} {s : State}
    {q : InboundPacket} {ipv4Pkt : IPv4} (hpay : q.parsed.payload = .ipv4 ipv4Pkt)
    (hbound : s.RouterBound q.parsed.destinationMAC) :
    (∀ pair ∈ flowPairs services q ipv4Pkt network s (hopAfter network s),
        RoundTrip pair.1.intent pair.2.intent q ipv4Pkt) ∧
      (submittedBy services s (.packetIn network q)).filter (·.kind ≠ .transit) <+:
        (flowPairs services q ipv4Pkt network s (hopAfter network s)).flatMap pairList ∧
      ((∃ b s', process services network q s = .ok b s') →
        (submittedBy services s (.packetIn network q)).filter (·.kind ≠ .transit) =
          (flowPairs services q ipv4Pkt network s (hopAfter network s)).flatMap pairList) := by
  obtain ⟨hinitial, hall⟩ := succeeded_flowAttempts services q ipv4Pkt network s
    (hopAfter network s)
  rw [filter_flow_submittedBy services network hpay hbound,
    process_returns_iff services network hpay hbound, callAttempts, List.mem_append, not_or]
  refine ⟨fun pair hpair => roundTrip_of_mem_flowPairs hpay hpair, ?_, ?_⟩
  · split_ifs
    · exact List.nil_prefix
    · exact hinitial
  · rintro ⟨hblock, hflow⟩
    rw [if_neg hblock, hall hflow]

/-- A packet of `h01` in the deployment, which gets the two intents of one round trip. -/
theorem flow_pairs_round_trip_deployed :
    let s := next deployed .init (.config (deployedWith 0) deployedEvent)
    ((submittedBy deployed s (.packetIn (deployedWith 3) deployedPacket)).filter
        (·.kind ≠ .transit)).length = 2 ∧
      ∀ pair ∈ flowPairs deployed deployedPacket ⟨⟨0xc0a83201⟩, ⟨0xc0a83302⟩, .udp 4000 53⟩
          (deployedWith 3) s (hopAfter (deployedWith 3) s),
        RoundTrip pair.1.intent pair.2.intent deployedPacket
          ⟨⟨0xc0a83201⟩, ⟨0xc0a83302⟩, .udp 4000 53⟩ :=
  ⟨by decide, (flow_pairs_round_trip deployed rfl (by decide)).1⟩

end VRouter
