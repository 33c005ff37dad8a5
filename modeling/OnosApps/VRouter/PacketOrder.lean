import Mathlib.Data.List.Perm.Basic
import OnosApps.VRouter.Transit

/-!
# The virtual router: the order of packets

In a network that stays the same, a run of packet-ins submits the transit intents once, and for
each packet the intents of its flow. The next hop of a flow is the one the lookup finds; only if
it finds none, the locals are those that the transit loop has left, and then it matters whether
the packet was the first. So the order of the packets does not matter as long as the lookup
finds a route for every packet to the virtual gateway, or the transit intents are built before.

## Main definitions

* `Found24`: there is a route with exactly the /24 of the destination
* `OrderFree`: the packet does not depend on what the transit loop leaves
* `caused`: the intents for the flow of a packet

## Main results

* `lookup_eq_of_found24`: the lookup does not depend on the locals if it finds a route
* `submitted_run_packets`: what a run of packets submits
* `packet_order_irrelevant`: the order of the packets does not matter
* `order_of_missing_route`: two orders with different intents
-/

namespace VRouter

open Onos Runs

/-! ## The lookup -/

/-- There is a route with exactly the /24 of the address. -/
def Network.Found24 (network : Network) (dstIp : Ip4Address) : Prop :=
  ∃ info ∈ network.routes, info.ipPrefix = IpPrefix.valueOf dstIp 24

section Lookup

variable {network : Network} {dstIp : Ip4Address}

theorem lookupTable_of_find?_eq_none {table : List RouteInfo}
    (h : table.find? (·.ipPrefix = IpPrefix.valueOf dstIp 24) = none) (nextHop : NextHop) :
    lookupTable dstIp nextHop table = some nextHop := by
  rw [lookupTable, h]

theorem lookupTable_of_find?_eq_some {table : List RouteInfo} {info : RouteInfo}
    (h : table.find? (·.ipPrefix = IpPrefix.valueOf dstIp 24) = some info) (nextHop : NextHop) :
    lookupTable dstIp nextHop table =
      info.bestRoute.map fun route => ⟨route.nextHop, route.nextHopMac⟩ := by
  rw [lookupTable, h]

/-- A table with a match overwrites the locals, so what comes before it makes no difference. -/
theorem foldlM_lookupTable_eq {tables : List (List RouteInfo)}
    (h : ∃ table ∈ tables, ∃ info ∈ table, info.ipPrefix = IpPrefix.valueOf dstIp 24)
    (nextHop nextHop' : NextHop) :
    tables.foldlM (lookupTable dstIp) nextHop = tables.foldlM (lookupTable dstIp) nextHop' := by
  induction tables generalizing nextHop nextHop' with
  | nil => simp at h
  | cons table tables ih =>
    rw [List.foldlM_cons, List.foldlM_cons]
    cases hfind : table.find? (·.ipPrefix = IpPrefix.valueOf dstIp 24) with
    | some info =>
      rw [lookupTable_of_find?_eq_some hfind, lookupTable_of_find?_eq_some hfind]
    | none =>
      rw [lookupTable_of_find?_eq_none hfind, lookupTable_of_find?_eq_none hfind]
      -- the match is in a later table
      refine ih ?_ nextHop nextHop'
      obtain ⟨table', htable', info, hinfo, hsame⟩ := h
      rcases List.mem_cons.mp htable' with rfl | htable'
      · exact absurd hsame (by simpa using List.find?_eq_none.mp hfind info hinfo)
      · exact ⟨table', htable', info, hinfo, hsame⟩

theorem lookup_eq_of_found24 (h : network.Found24 dstIp) (nextHop nextHop' : NextHop) :
    network.lookup dstIp nextHop = network.lookup dstIp nextHop' := by
  obtain ⟨info, hinfo, hsame⟩ := h
  obtain ⟨table, htable, hinfo⟩ := List.mem_flatten.mp hinfo
  exact foldlM_lookupTable_eq ⟨table, htable, info, hinfo, hsame⟩ nextHop nextHop'

/-- The lookup throws at a match that is not resolved, whatever the locals are. -/
theorem lookup_isSome (hresolved : ∀ info ∈ network.routes, info.bestRoute.isSome)
    (dstIp : Ip4Address) (nextHop : NextHop) : (network.lookup dstIp nextHop).isSome := by
  have hstep : ∀ (tables : List (List RouteInfo)), tables ⊆ network.routeTables →
      ∀ nextHop, (tables.foldlM (lookupTable dstIp) nextHop).isSome := by
    intro tables htables
    induction tables with
    | nil => simp
    | cons table tables ih =>
      intro nextHop
      obtain ⟨htable, htables⟩ := List.cons_subset.mp htables
      rw [List.foldlM_cons]
      cases hfind : table.find? (·.ipPrefix = IpPrefix.valueOf dstIp 24) with
      | none =>
        rw [lookupTable_of_find?_eq_none hfind]
        exact ih htables nextHop
      | some info =>
        obtain ⟨route, hroute⟩ := Option.isSome_iff_exists.mp
          (hresolved info (List.mem_flatten.mpr ⟨table, htable, List.mem_of_find?_eq_some hfind⟩))
        rw [lookupTable_of_find?_eq_some hfind, hroute]
        exact ih htables _
  exact hstep network.routeTables (List.Subset.refl _) nextHop

end Lookup

/-! ## Runs of packets -/

/-- The packet is not for the virtual gateway, or the lookup finds a route for it, or the transit
loop leaves nothing: the transit intents are built already, or there are no routes at all. -/
def OrderFree (network : Network) (s : State) (inPkt : InboundPacket) : Prop :=
  ∀ ipv4Pkt, inPkt.parsed.payload = .ipv4 ipv4Pkt →
    some inPkt.parsed.destinationMAC = s.virtualMac → s.hasBuildTransitIntents = false →
    network.routes ≠ [] → network.Found24 ipv4Pkt.destinationAddress

/-- The transit intents of a call that finds none built, in the configuration of `s`. -/
def transitIntents (services : Services) (network : Network) (s : State) : List Submission :=
  succeeded (blockAttempts services network (s.built false []))

/-- The intents for the flow of a packet, in the configuration of `s`. -/
def caused (services : Services) (network : Network) (s : State) (inPkt : InboundPacket) :
    List Submission :=
  match inPkt.parsed.payload with
  | .ipv4 ipv4Pkt =>
    if s.RouterBound inPkt.parsed.destinationMAC then
      succeeded (flowAttempts services network s inPkt ipv4Pkt {})
    else []
  | _ => []

/-- One of the packets is router-bound. -/
def anyRouted (network : Network) (s : State) (pkts : List InboundPacket) : Bool :=
  pkts.any fun inPkt => (Event.packetIn network inPkt).Routed s

section Run

variable {services : Services} {network : Network} {s : State} {peersIp : List Ip4Address}
  {inPkt : InboundPacket} {ipv4Pkt : IPv4}

/-- The flow of the packet does not depend on the locals that the transit block leaves. -/
theorem OrderFree.flowAttempts_eq (h : OrderFree network s inPkt)
    (hpay : inPkt.parsed.payload = .ipv4 ipv4Pkt)
    (hresolved : ∀ info ∈ network.routes, info.bestRoute.isSome)
    (hbuilt : s.hasBuildTransitIntents = false) (hroutes : network.routes ≠ [])
    (nextHop nextHop' : NextHop) :
    flowAttempts services network s inPkt ipv4Pkt nextHop =
      flowAttempts services network s inPkt ipv4Pkt nextHop' := by
  unfold flowAttempts
  by_cases hvirtual : some inPkt.parsed.destinationMAC = s.virtualMac
  · rw [lookup_eq_of_found24 (h ipv4Pkt hpay hvirtual hbuilt hroutes) nextHop nextHop']
  · -- towards the hosts, the next hop is looked up and not used
    obtain ⟨hop, hhop⟩ := Option.isSome_iff_exists.mp
      (lookup_isSome hresolved ipv4Pkt.destinationAddress nextHop)
    obtain ⟨hop', hhop'⟩ := Option.isSome_iff_exists.mp
      (lookup_isSome hresolved ipv4Pkt.destinationAddress nextHop')
    rw [hhop, hhop', Option.elim_some, Option.elim_some, if_neg hvirtual, if_neg hvirtual]

theorem Network.Valid.resolved (hvalid : network.Valid peersIp) :
    ∀ info ∈ network.routes, info.bestRoute.isSome :=
  fun info hinfo => Option.isSome_of_isSome_bind (hvalid.routes info hinfo)

theorem caused_of_not_routed (services : Services)
    (h : (Event.packetIn network inPkt).Routed s = false) :
    caused services network s inPkt = [] := by
  unfold caused
  cases hpay : inPkt.parsed.payload with
  | ipv4 ipv4Pkt => exact if_neg (Event.not_routerBound_of_not_routed h ipv4Pkt hpay)
  | arp _ => rfl
  | other _ => rfl

theorem transitIntents_of_routes_eq_nil (services : Services) (s : State)
    (h : network.routes = []) : transitIntents services network s = [] := by
  rw [transitIntents, blockAttempts, if_neg (by simp [State.built]), h]
  cases (s.built false []).peersIp.bind network.peerPorts <;> rfl

/-- The transit intents are added by the first router-bound packet, if there are any. -/
theorem transitIntents_once (services : Services) (network : Network) (s : State) (routed : Bool) :
    (if s.hasBuildTransitIntents = false ∧ routed then transitIntents services network s else []) ++
        (if s.hasBuildTransitIntents || routed && !network.routes.isEmpty then []
          else transitIntents services network s) =
      if s.hasBuildTransitIntents = false then transitIntents services network s else [] := by
  cases s.hasBuildTransitIntents with
  | true => simp
  | false =>
    cases routed with
    | false => simp
    | true =>
      by_cases hroutes : network.routes = []
      · simp [hroutes, transitIntents_of_routes_eq_nil services s hroutes]
      · simp [hroutes]

variable (hmac : s.quaggaMac.isSome) (hpeers : s.peersIp = some peersIp)
  (hvalid : network.Valid peersIp)

include hmac hpeers hvalid

/-- One router-bound packet, when some packets have been handled. -/
theorem next_of_routed (services : Services) (hpay : inPkt.parsed.payload = .ipv4 ipv4Pkt)
    (hbound : s.RouterBound inPkt.parsed.destinationMAC) (hfree : OrderFree network s inPkt)
    {flag : Bool} (hkept : s.hasBuildTransitIntents = true → flag = true)
    (subs : List Submission) :
    next services (s.built flag subs) (.packetIn network inPkt) =
      s.built (flag || !network.routes.isEmpty)
        (subs ++ ((if flag then [] else transitIntents services network s) ++
          caused services network s inPkt)) := by
  have hflow : flowAttempts services network (s.built flag subs) inPkt ipv4Pkt
      (hopAfter network (s.built flag subs)) =
      flowAttempts services network s inPkt ipv4Pkt {} := by
    by_cases hleft : flag = true ∨ network.routes = []
    · -- the loop is not run, or there is no route, and it leaves nothing
      have hhop : hopAfter network (s.built flag subs) = {} := by
        rcases hleft with rfl | hroutes
        · rfl
        · simp [hopAfter, hroutes]
      rw [hhop]
      rfl
    · obtain ⟨hflag, hroutes⟩ := not_or.mp hleft
      have hbuilt : s.hasBuildTransitIntents = false := Bool.eq_false_iff.mpr (mt hkept hflag)
      exact hfree.flowAttempts_eq hpay hvalid.resolved hbuilt hroutes _ _
  have hflag : flagAfter network (s.built flag subs) = (flag || !network.routes.isEmpty) := by
    have hports := peerPorts_of_peersAtPorts (s := s.built flag subs)
      ⟨peersIp, hpeers, hvalid.peers⟩
    rw [flagAfter, hports, Option.isSome_some, Bool.true_and]
    rfl
  have hblock : succeeded (blockAttempts services network (s.built flag subs)) =
      if flag then [] else transitIntents services network s := by
    cases flag <;> rfl
  rw [next, finalState_process_eq (s := s.built flag subs) services network hpay hbound,
    State.built_built, callAttempts, succeeded_append_of_notMem
      ((none_notMem_blockAttempts_iff services).mpr
        (hvalid.passesTransit (s := s.built flag subs) hmac hpeers)),
    hflow, hflag, hblock, caused]
  simp only [hpay, hbound, if_true]

/-- **What a run of packets submits**: the transit intents if there is a router-bound packet and
they are not built yet, and the intents for the flow of each packet. -/
theorem submitted_run_packets (services : Services) (pkts : List InboundPacket)
    (hpkts : ∀ inPkt ∈ pkts, OrderFree network s inPkt) :
    ∃ subs, run (fun s inPkt => next services s (.packetIn network inPkt)) s pkts =
        s.built (s.hasBuildTransitIntents || anyRouted network s pkts && !network.routes.isEmpty)
          subs ∧
      subs.Perm ((if s.hasBuildTransitIntents = false ∧ anyRouted network s pkts then
          transitIntents services network s else []) ++
        pkts.flatMap (caused services network s)) := by
  induction pkts using List.reverseRecOn with
  | nil => exact ⟨[], by simp [State.built_nil, anyRouted], by simp [anyRouted]⟩
  | append_singleton pkts inPkt ih =>
    obtain ⟨subs, hrun, hperm⟩ := ih fun p hp => hpkts p (by simp [hp])
    have hany : anyRouted network s (pkts ++ [inPkt]) =
        (anyRouted network s pkts || (Event.packetIn network inPkt).Routed s) := by
      simp [anyRouted]
    rw [run_snoc, hrun, hany, List.flatMap_append, List.flatMap_singleton]
    cases hrouted : (Event.packetIn network inPkt).Routed s with
    | false =>
      -- the packets before have changed nothing that decides where a packet is bound
      have hbuilt : (Event.packetIn network inPkt).Routed (s.built
          (s.hasBuildTransitIntents || anyRouted network s pkts && !network.routes.isEmpty)
          subs) = false := hrouted
      rw [next_of_not_routed services hbuilt, caused_of_not_routed services hrouted,
        Bool.or_false, List.append_nil]
      exact ⟨subs, rfl, hperm⟩
    | true =>
      obtain ⟨ipv4Pkt, hpay, hbound⟩ := Event.exists_of_routed hrouted
      have hflag : (s.hasBuildTransitIntents || anyRouted network s pkts &&
          !network.routes.isEmpty || !network.routes.isEmpty) =
          (s.hasBuildTransitIntents || (anyRouted network s pkts || true) &&
            !network.routes.isEmpty) := by
        cases s.hasBuildTransitIntents <;> cases network.routes.isEmpty <;> simp
      rw [next_of_routed hmac hpeers hvalid services hpay hbound (hpkts inPkt (by simp))
        (fun hbuilt => by simp [hbuilt]), hflag]
      refine ⟨_, rfl, (hperm.append_right _).trans ?_⟩
      -- the transit intents of this packet come before the flows of the earlier ones
      simp only [Bool.or_true, and_true, List.append_assoc]
      rw [← transitIntents_once services network s (anyRouted network s pkts), List.append_assoc]
      exact (List.perm_append_comm_assoc _ _ _).append_left _

end Run

/-- **The order of packets does not matter** if the lookup finds a route for every packet to the
virtual gateway, or the transit intents are built before the first packet: any two orders submit
the same intents and leave the same flag, and what they submit is the transit intents, once, and
for each packet the intents it causes on its own. -/
theorem packet_order_irrelevant (services : Services) {network : Network} {s : State}
    {peersIp : List Ip4Address} (hmac : s.quaggaMac.isSome) (hpeers : s.peersIp = some peersIp)
    (hvalid : network.Valid peersIp) {pkts pkts' : List InboundPacket} (hperm : pkts.Perm pkts')
    (hpkts : ∀ inPkt ∈ pkts, OrderFree network s inPkt) :
    let after := run (fun s inPkt => next services s (.packetIn network inPkt)) s
    (after pkts).submitted.Perm (after pkts').submitted ∧
      (after pkts).hasBuildTransitIntents = (after pkts').hasBuildTransitIntents ∧
      (after pkts).submitted.Perm (s.submitted ++
        ((if s.hasBuildTransitIntents = false ∧ anyRouted network s pkts then
          transitIntents services network s else []) ++
        pkts.flatMap (caused services network s))) := by
  obtain ⟨subs, hrun, hsubs⟩ := submitted_run_packets hmac hpeers hvalid services pkts hpkts
  obtain ⟨subs', hrun', hsubs'⟩ := submitted_run_packets hmac hpeers hvalid services
    pkts' fun inPkt hmem => hpkts inPkt (hperm.mem_iff.mpr hmem)
  have hany : anyRouted network s pkts = anyRouted network s pkts' := hperm.any_eq
  have hflows := hperm.flatMap_right (caused services network s)
  intro after
  simp only [after, hrun, hrun', State.built]
  refine ⟨?_, by rw [hany], hsubs.append_left _⟩
  refine (hsubs.trans ?_).trans hsubs'.symm |>.append_left _
  rw [hany]
  exact hflows.append_left _

/-- A packet of `h01` to a host behind the second edge router. -/
def otherPacket : InboundPacket := packetFrom h01 ⟨0xc0a83201⟩ ⟨0xc0a83402⟩

/-- The two orders of two packets in the deployment. -/
theorem packet_order_irrelevant_deployed :
    let s := next deployed .init (.config (deployedWith 0) deployedEvent)
    let after := run (fun s inPkt => next deployed s (.packetIn (deployedWith 3) inPkt)) s
    (after [deployedPacket, otherPacket]).submitted.Perm
      (after [otherPacket, deployedPacket]).submitted := by
  have hfree : ∀ inPkt ∈ [deployedPacket, otherPacket], OrderFree (deployedWith 3)
      (next deployed .init (.config (deployedWith 0) deployedEvent)) inPkt := by
    intro inPkt hmem ipv4Pkt hpay _ _ _
    rcases List.mem_pair.mp hmem with rfl | rfl
    · obtain rfl := Ethernet.Payload.ipv4.inj hpay
      exact ⟨⟨IpPrefix.valueOf ⟨0xc0a83300⟩ 24, some ⟨⟨0xac1e0102⟩, ⟨0xe1⟩⟩⟩, by decide, by decide⟩
    · obtain rfl := Ethernet.Payload.ipv4.inj hpay
      exact ⟨⟨IpPrefix.valueOf ⟨0xc0a83400⟩ 24, some ⟨⟨0xac1e0202⟩, ⟨0xe2⟩⟩⟩, by decide, by decide⟩
  exact (packet_order_irrelevant deployed (by decide) deployed_ready.peersIp (deployedWith_valid 3)
    (.swap otherPacket deployedPacket []) hfree).1

/-- A packet of `h01` to an address for which the deployment has no route. -/
def strayPacket : InboundPacket := packetFrom h01 ⟨0xc0a83201⟩ ⟨0x08080808⟩

/-- **Two orders with different intents**: the lookup misses for one of two packets. If it comes
second, it gets no intents; if it comes first, it goes where the last route leads. -/
theorem order_of_missing_route :
    let s := next deployed .init (.config (deployedWith 0) deployedEvent)
    let after := run (fun s inPkt => next deployed s (.packetIn (deployedWith 3) inPkt)) s
    (deployedWith 3).Valid deployedPeers ∧
      ¬ (after [deployedPacket, strayPacket]).submitted.Perm
        (after [strayPacket, deployedPacket]).submitted := by
  refine ⟨deployedWith_valid 3, fun hperm => ?_⟩
  exact absurd hperm.length_eq (by decide)

end VRouter
