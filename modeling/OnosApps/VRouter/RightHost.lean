import OnosApps.Runs.Run
import OnosApps.VRouter.Submissions

/-!
# The virtual router: intents for one host

The intents that deliver to a host rewrite the destination address to that of the host, but
they match the whole /24 prefix around it. They deliver to the right host exactly as long as
no other host has an address in that prefix.

## Main definitions

* `DeliversRight`: the frames an intent takes to a host are for that host
* `RightHost`: every submitted intent that delivers to a host has this property
* `Alone hosts mac p`: the host with the address `mac` is the only one with an address in `p`
* `AloneInSubnet`: the condition on a packet-in

## Main results

* `deliversRight_iff_alone`: an intent is right exactly when its host is alone in its prefix
* `rightHost_of_aloneInSubnet`: runs in which hosts are alone in their subnets
* `rightHost_next_iff_of_returns`: the condition is exact for every call that returns
* `two_hosts_in_one_subnet`: two hosts of the deployed topology
-/

namespace VRouter

open Onos Runs

variable (hosts : List Host)

/-- The host with the hardware address `mac` is the only one with an address in `p`. -/
def Alone (mac : MacAddress) (p : IpPrefix) : Prop :=
  ∀ h ∈ hosts, h.mac = mac → ∀ h' ∈ hosts, ∀ ip ∈ h'.ipAddresses, p.contains ip → h' = h

instance (mac : MacAddress) (p : IpPrefix) : Decidable (Alone hosts mac p) :=
  inferInstanceAs (Decidable (∀ h ∈ hosts, _))

/-- If the intent sets the destination to the address of a host, every frame it takes that is
addressed to a host is for that host. -/
def DeliversRight (intent : Intent) : Prop :=
  ∀ h ∈ hosts, intent.treatment.ethDst = some h.mac → ∀ cp eth ipv4Pkt,
    intent.Accepts cp eth → eth.payload = .ipv4 ipv4Pkt →
      ∀ h' ∈ hosts, ipv4Pkt.destinationAddress ∈ h'.ipAddresses → h' = h

/-- The reverse intents of the SDN-external branch and the forward intents of the External-SDN
branch deliver to the right hosts. The other kinds are outside: they rewrite to the address of a
next hop, or of the sender of a packet for the speaker, which is that of a host only if a host is
one of these. -/
def RightHost (s : State) : Prop :=
  ∀ sub ∈ s.submitted, sub.kind = .sdnExternalReverse ∨ sub.kind = .externalSdnForward →
    DeliversRight hosts sub.intent

/-- A packet-in that is addressed to the router: for the virtual address, the sender is alone in
the /24 prefix of the packet's source, and for the address of the speaker, the hosts it is
addressed to are alone in the /24 prefix of its destination. -/
def AloneInSubnet (s : State) : Event → Prop
  | .config _ _ => True
  | .packetIn _ inPkt => ∀ ipv4Pkt, inPkt.parsed.payload = .ipv4 ipv4Pkt →
      (some inPkt.parsed.destinationMAC = s.virtualMac →
        Alone hosts inPkt.parsed.sourceMAC (IpPrefix.valueOf ipv4Pkt.sourceAddress 24)) ∧
      (some inPkt.parsed.destinationMAC ≠ s.virtualMac →
        some inPkt.parsed.destinationMAC = s.quaggaMac → ∀ h ∈ hosts,
        ipv4Pkt.destinationAddress ∈ h.ipAddresses →
          Alone hosts h.mac (IpPrefix.valueOf ipv4Pkt.destinationAddress 24))

section Step

variable {hosts} {services : Services} {s : State} {e : Event}

/-- The packet to `ip` that shows that an intent for `ip` takes something. -/
theorem exists_accepts (services : Services) (ingress egress : ConnectPoint) (p : IpPrefix)
    (src dst : MacAddress) {ip : Ip4Address} (hip : p.contains ip) :
    ∃ cp eth ipv4Pkt, (Intent.pointToPoint
        (sdnExternalIntent services ingress egress p src dst)).Accepts cp eth ∧
      eth.payload = .ipv4 ipv4Pkt ∧ ipv4Pkt.destinationAddress = ip := by
  refine ⟨ingress, ⟨MacAddress.ZERO, MacAddress.ZERO, .ipv4 ⟨Ip4Address.ZERO, ip, .udp 0 0⟩⟩, _,
    ⟨?_, ?_⟩, rfl, rfl⟩
  · exact Finset.mem_singleton_self ingress
  · exact matches_dstSelector.mpr ⟨_, rfl, hip⟩

theorem deliversRight_iff_alone {ingress egress : ConnectPoint} {p : IpPrefix}
    {src dst : MacAddress} :
    DeliversRight hosts (.pointToPoint (sdnExternalIntent services ingress egress p src dst)) ↔
      Alone hosts dst p := by
  constructor
  · intro hright h hh hmac h' hh' ip hip hcontains
    -- an address of another host in the prefix gives a frame that the intent takes
    obtain ⟨cp, eth, ipv4Pkt, hacc, hpay, rfl⟩ :=
      exists_accepts services ingress egress p src dst hcontains
    exact hright h hh (congrArg some hmac.symm) cp eth ipv4Pkt hacc hpay h' hh' hip
  · intro halone h hh hmac cp eth ipv4Pkt hacc hpay h' hh' hip
    obtain ⟨ipv4Pkt', hpay', hcontains⟩ := matches_dstSelector.mp hacc.2
    obtain rfl : ipv4Pkt' = ipv4Pkt := Ethernet.Payload.ipv4.inj (hpay'.symm.trans hpay)
    exact halone h hh (Option.some.inj hmac).symm h' hh' _ hip hcontains

theorem RightHost.next (hs : RightHost hosts s) (hhosts : e.network.hosts = hosts)
    (he : AloneInSubnet hosts s e) : RightHost hosts (VRouter.next services s e) := by
  intro sub hsub hkind
  rcases request_of_mem_next hsub with hsub | hreq
  · exact hs sub hsub hkind
  cases e with
  | config network e =>
    -- a configuration event submits no intent towards a host
    obtain ⟨config, -, hreq⟩ := hreq
    cases hreq <;> simp at hkind
  | packetIn network inPkt =>
    obtain ⟨ipv4Pkt, hpay, hreq⟩ := hreq
    obtain ⟨hsrc, hdst⟩ := he ipv4Pkt hpay
    cases hreq with
    | transit => simp at hkind
    | sdnExternalForward => simp at hkind
    | externalSdnReverse => simp at hkind
    | sdnExternalReverse hbound => exact deliversRight_iff_alone.mpr (hsrc hbound)
    | externalSdnForward hother hbound hhost hip =>
      exact deliversRight_iff_alone.mpr (hdst hother hbound _ (hhosts ▸ hhost) hip)

/-- For a call that returns the condition is also necessary. -/
theorem rightHost_next_iff_of_returns {network : Network} {inPkt : InboundPacket} {b : Bool}
    {s' : State} (hs : RightHost hosts s) (hhosts : network.hosts = hosts)
    (hreturns : process services network inPkt s = .ok b s') :
    RightHost hosts (VRouter.next services s (.packetIn network inPkt)) ↔
      AloneInSubnet hosts s (.packetIn network inPkt) := by
  refine ⟨fun hright ipv4Pkt hpay => ⟨fun hbound => ?_, fun hother hbound host hhost hip => ?_⟩,
    hs.next hhosts⟩
  · obtain ⟨cp, mac, hmem⟩ := mem_of_process_ok_virtual hpay hbound hreturns
    rw [VRouter.next, finalState, hreturns] at hright
    exact deliversRight_iff_alone.mp (hright _ hmem (.inl rfl))
  · obtain ⟨mac, hmem⟩ :=
      mem_of_process_ok_quagga hpay hother hbound hreturns host (hhosts ▸ hhost) hip
    rw [VRouter.next, finalState, hreturns] at hright
    exact deliversRight_iff_alone.mp (hright _ hmem (.inr rfl))

end Step

/-- **When the intents are for the right host.** In a run of configuration events and packet-ins
in which the hosts stay what they are, and in which every packet for the virtual address comes
from a sender alone in the /24 prefix of its source, and every packet for the address of the
speaker goes to a host alone in the /24 prefix of its destination, every state has only intents
that deliver to the right host. -/
theorem rightHost_of_aloneInSubnet (services : Services) (hosts : List Host) (es : List Event)
    (hhosts : ∀ e ∈ es, e.network.hosts = hosts)
    (hes : Along (next services) (AloneInSubnet hosts) State.init es) :
    ∀ es', es' <+: es → RightHost hosts (run (next services) State.init es') := by
  have hinit : RightHost hosts State.init := by
    intro sub hsub
    simp [State.init] at hsub
  have hboth := hes.and (along_of_forall hhosts)
  exact hboth.run_invariant_throughout (fun s e hs he => hs.next he.2 he.1) hinit

/-- With the deployed configuration and hosts in two subnets, the intents of a packet of `h01`
are for the right hosts. -/
theorem rightHost_of_aloneInSubnet_two_subnets :
    RightHost [h01, ⟨⟨0xa9⟩, [⟨0xc0a83c01⟩], ⟨⟨1⟩, ⟨9⟩⟩⟩]
      (run (next deployed) State.init
        [.config (deployedNetwork [h01, ⟨⟨0xa9⟩, [⟨0xc0a83c01⟩], ⟨⟨1⟩, ⟨9⟩⟩⟩]) deployedEvent,
          .packetIn (deployedNetwork [h01, ⟨⟨0xa9⟩, [⟨0xc0a83c01⟩], ⟨⟨1⟩, ⟨9⟩⟩⟩])
            (packetFrom h01 ⟨0xc0a83201⟩ ⟨0xc0a83302⟩)]) := by
  refine rightHost_of_aloneInSubnet deployed _ _ ?_ ?_ _ (List.prefix_refl _)
  · simp [Event.network, deployedNetwork]
  · refine ⟨trivial, fun ipv4Pkt hpay => ?_, trivial⟩
    obtain rfl := Ethernet.Payload.ipv4.inj hpay
    exact ⟨fun _ => by decide, fun hother => absurd (by decide) hother⟩

/-- **Two hosts in one subnet.** After one packet of `h01` of the deployed topology to the subnet
of an edge router, the reverse intent takes the packets for `h02` to `h01`. -/
theorem two_hosts_in_one_subnet :
    ¬ RightHost [h01, h02]
      (run (next deployed) State.init
        [.config (deployedNetwork [h01, h02]) deployedEvent,
          .packetIn (deployedNetwork [h01, h02]) (packetFrom h01 ⟨0xc0a83201⟩ ⟨0xc0a83302⟩)]) := by
  intro hright
  -- the answer of the edge router to a packet of `h02`
  have hsame := hright
    ⟨.sdnExternalReverse, .pointToPoint (sdnExternalIntent deployed ⟨⟨2⟩, ⟨3⟩⟩ h01.location
      (IpPrefix.valueOf ⟨0xc0a83201⟩ 24) ⟨1⟩ h01.mac)⟩ (by decide) (by decide) h01 (by decide)
    (by decide) ⟨⟨2⟩, ⟨3⟩⟩
    ⟨⟨0xe1⟩, ⟨0x9e685b4b7caf⟩, .ipv4 ⟨⟨0xc0a83302⟩, ⟨0xc0a83202⟩, .udp 53 4000⟩⟩
    ⟨⟨0xc0a83302⟩, ⟨0xc0a83202⟩, .udp 53 4000⟩ (by decide) rfl h02 (by decide) (by decide)
  exact absurd hsame (by decide)

end VRouter
