import OnosApps.VRouter.Handlers

/-!
# The virtual router: what the handlers submit

The handlers only ever append to the submitted intents. This module says once what a
configuration event and a packet-in can append, in terms of the configuration, the packet and
the network, whether the handler returns or throws. The invariants of the following modules
are about these requests and never look into the handlers again.

## Main definitions

* `Extends A T s s'`: from `s` to `s'`, only intents with `A` were submitted, and the flag was
  set only if `T`
* `Keeps (Extends A T s) x Q`: the handler `x` only submits intents with `A`, and returns a
  value with `Q`
* `Network.pointOf`, `Network.leadsTo`: the port of an address, and the egress point and the
  next-hop address of a route
* `PacketRequest`, `ConfigRequest`: the intents an event can submit
* `Reconfigured`: what a configuration event can change
* `EventRequest`: the intents that an event of a run can submit

## Main results

* `finalState_process`: a packet-in only submits its requests
* `finalState_event`: a configuration event only submits its requests, and only assigns what
  it has parsed
* `submitted_appended`: an event of a run only submits its requests
-/

namespace VRouter

open Onos Runs

/-! ## Handlers that append -/

section Extends

/-- From `s` to `s'` the configuration stays, only intents with `A` were submitted, and the flag
was set only if `T`. -/
structure Extends (A : Submission → Prop) (T : Prop) (s s' : State) : Prop where
  quaggaCp : s'.quaggaCp = s.quaggaCp
  quaggaMac : s'.quaggaMac = s.quaggaMac
  virtualIp : s'.virtualIp = s.virtualIp
  virtualMac : s'.virtualMac = s.virtualMac
  peersIp : s'.peersIp = s.peersIp
  hasBuildTransitIntents :
    s'.hasBuildTransitIntents = s.hasBuildTransitIntents ∨ T ∧ s'.hasBuildTransitIntents = true
  submitted : ∃ new, s'.submitted = s.submitted ++ new ∧ ∀ sub ∈ new, A sub

variable {A A' : Submission → Prop} {T T' : Prop} {s s' t : State} {α : Type}

/-- What is in a list to which only intents with `A` were appended. -/
theorem mem_or_of_mem_appended {subs subs' : List Submission} {sub : Submission}
    (h : ∃ new, subs' = subs ++ new ∧ ∀ sub ∈ new, A sub) (hsub : sub ∈ subs') :
    sub ∈ subs ∨ A sub := by
  obtain ⟨new, rfl, hall⟩ := h
  exact (List.mem_append.mp hsub).imp_right (hall sub)

theorem appended_trans {subs subs' subs'' : List Submission}
    (h : ∃ new, subs' = subs ++ new ∧ ∀ sub ∈ new, A sub)
    (h' : ∃ new, subs'' = subs' ++ new ∧ ∀ sub ∈ new, A sub) :
    ∃ new, subs'' = subs ++ new ∧ ∀ sub ∈ new, A sub := by
  obtain ⟨new, rfl, hall⟩ := h
  obtain ⟨new', rfl, hall'⟩ := h'
  refine ⟨new ++ new', List.append_assoc _ _ _, fun sub hsub => ?_⟩
  rcases List.mem_append.mp hsub with hsub | hsub
  · exact hall sub hsub
  · exact hall' sub hsub

theorem Extends.refl (s : State) : Extends A T s s :=
  ⟨rfl, rfl, rfl, rfl, rfl, .inl rfl, [], by simp, by simp⟩

theorem Extends.trans (h : Extends A T s t) (h' : Extends A' T' t s') (hA : ∀ sub, A' sub → A sub)
    (hT : T' → T) : Extends A T s s' := by
  have hlater : ∃ new, s'.submitted = t.submitted ++ new ∧ ∀ sub ∈ new, A sub := by
    obtain ⟨new, hnew, hall⟩ := h'.submitted
    exact ⟨new, hnew, fun sub hsub => hA sub (hall sub hsub)⟩
  refine ⟨h'.quaggaCp.trans h.quaggaCp, h'.quaggaMac.trans h.quaggaMac,
    h'.virtualIp.trans h.virtualIp, h'.virtualMac.trans h.virtualMac,
    h'.peersIp.trans h.peersIp, ?_, appended_trans h.submitted hlater⟩
  rcases h'.hasBuildTransitIntents with hflag' | ⟨ht, hflag'⟩
  · rw [hflag']
    exact h.hasBuildTransitIntents
  · exact .inr ⟨hT ht, hflag'⟩

theorem Extends.of_mem (h : Extends A T s s') {sub : Submission} (hsub : sub ∈ s'.submitted) :
    sub ∈ s.submitted ∨ A sub :=
  mem_or_of_mem_appended h.submitted hsub

theorem Extends.subset (h : Extends A T s s') : s.submitted ⊆ s'.submitted := by
  obtain ⟨new, hnew, -⟩ := h.submitted
  rw [hnew]
  exact List.subset_append_left _ _

theorem extends_submit {sub : Submission} (hsub : A sub) :
    Extends A T s { s with submitted := s.submitted ++ [sub] } :=
  ⟨rfl, rfl, rfl, rfl, rfl, .inl rfl, [sub], rfl, by simpa using hsub⟩

theorem keeps_setFlag (hT : T) :
    Keeps (Extends A T s)
      (modify fun s => { s with hasBuildTransitIntents := true } : Handler Unit) fun _ => True :=
  keeps_modify fun _ hs => { hs with hasBuildTransitIntents := .inr ⟨hT, rfl⟩ }

theorem keeps_submit {kind : IntentKind} {intent : Intent} (h : A ⟨kind, intent⟩) :
    Keeps (Extends A T s) (submit kind intent) fun _ => True :=
  keeps_modify fun _ hs => hs.trans (extends_submit h) (fun _ hsub => hsub) id

/-! ### The intent builders -/

variable {services : Services}

theorem keeps_pointToPoint {kind : IntentKind} {intent : PointToPointIntent}
    (h : A ⟨kind, .pointToPoint intent⟩) :
    Keeps (Extends A T s) (submitPointToPoint services kind intent) fun _ => True :=
  keeps_ite (fun _ => keeps_submit h) fun _ => keeps_throw

theorem keeps_sdnExternal {kind : IntentKind} {ingressPoint egressPoint : ConnectPoint}
    {matchDstIp : IpPrefix} {newSrcMac : Option MacAddress} {newDstMac : MacAddress}
    (h : ∀ mac, newSrcMac = some mac → A ⟨kind, .pointToPoint
      (sdnExternalIntent services ingressPoint egressPoint matchDstIp mac newDstMac)⟩) :
    Keeps (Extends A T s) (buildSDNExternalIntent services kind ingressPoint egressPoint matchDstIp
      newSrcMac newDstMac) fun _ => newSrcMac.isSome :=
  (keeps_orThrow newSrcMac).bind fun mac hmac =>
    (keeps_pointToPoint (h mac hmac)).mono fun _ _ => by simp [hmac]

theorem keeps_transit {ingressPoints : Finset ConnectPoint} {egressPoint : ConnectPoint}
    {matchDstIp : IpPrefix} {newSrcMac : Option MacAddress} {newDstMac : MacAddress}
    (h : ∀ mac, newSrcMac = some mac → A ⟨.transit, .multiPointToSinglePoint
      (transitIntent services ingressPoints egressPoint matchDstIp mac newDstMac)⟩) :
    Keeps (Extends A T s) (buildTransitIntent services ingressPoints egressPoint matchDstIp
      newSrcMac newDstMac) fun _ => True :=
  (keeps_orThrow newSrcMac).bind fun mac hmac =>
    keeps_ite (fun _ => keeps_submit (h mac hmac)) fun _ => keeps_throw

end Extends

/-! ## The requests of a packet-in -/

namespace Network

variable (network : Network)

/-- The egress point and the next-hop address of a route, if its next hop is resolved and lies
on an interface. -/
def leadsTo (info : RouteInfo) : Option (ConnectPoint × MacAddress) :=
  info.bestRoute.bind fun route =>
    (network.getMatchingInterface route.nextHop).map fun intf =>
      (intf.connectPoint, route.nextHopMac)

/-- The port of the address `ip`, if it lies on an interface. -/
def pointOf (ip : Ip4Address) : Option ConnectPoint :=
  (network.getMatchingInterface ip).map (·.connectPoint)

/-- The port of a peer. -/
def PeerPoint (peersIp : List Ip4Address) (p : ConnectPoint) : Prop :=
  ∃ ip ∈ peersIp, ∃ intf, network.getMatchingInterface ip = some intf ∧ intf.connectPoint = p

/-- The port towards the next hop of a route. -/
def EgressPoint (p : ConnectPoint) : Prop :=
  ∃ info ∈ network.routes, ∃ mac, network.leadsTo info = some (p, mac)

variable {network}

theorem pointOf_eq_some {ip : Ip4Address} {intf : Interface}
    (hintf : network.getMatchingInterface ip = some intf) :
    network.pointOf ip = some intf.connectPoint := by
  simp [pointOf, hintf]

theorem leadsTo_eq_some {info : RouteInfo} {route : ResolvedRoute} {intf : Interface}
    (hroute : info.bestRoute = some route)
    (hintf : network.getMatchingInterface route.nextHop = some intf) :
    network.leadsTo info = some (intf.connectPoint, route.nextHopMac) := by
  simp [leadsTo, hroute, hintf]

end Network

/-- The outcome of the route lookup for `dstIp` in `routes`: the next hop of a route with exactly
the /24 prefix of `dstIp`, if there is one, and otherwise whatever the locals held before. -/
def Found (routes : List RouteInfo) (dstIp : Ip4Address) (nextHop : NextHop) : Prop :=
  (∃ info ∈ routes, info.ipPrefix = IpPrefix.valueOf dstIp 24 ∧
      info.bestRoute = some ⟨nextHop.nextHopIp, nextHop.nextHopMac⟩) ∨
    ∀ info ∈ routes, info.ipPrefix ≠ IpPrefix.valueOf dstIp 24

/-- The intents that a router-bound packet can submit in the state `s`. -/
inductive PacketRequest (services : Services) (network : Network) (s : State)
    (inPkt : InboundPacket) (ipv4Pkt : IPv4) : Submission → Prop
  | transit {info : RouteInfo} {egressPoint : ConnectPoint} {peersIp : List Ip4Address}
      {newSrcMac newDstMac : MacAddress} {ingressPoints : Finset ConnectPoint}
      (hbuilt : s.hasBuildTransitIntents = false) (hpeers : s.peersIp = some peersIp)
      (hinfo : info ∈ network.routes) (hlead : network.leadsTo info = some (egressPoint, newDstMac))
      (hsrc : s.quaggaMac = some newSrcMac) (hegress : egressPoint ∉ ingressPoints)
      (hingress : ∀ p ∈ ingressPoints, network.PeerPoint peersIp p ∨ network.EgressPoint p) :
      PacketRequest services network s inPkt ipv4Pkt
        ⟨.transit, .multiPointToSinglePoint
          (transitIntent services ingressPoints egressPoint info.ipPrefix newSrcMac newDstMac)⟩
  | sdnExternalForward {nextHop : NextHop} {intf : Interface} {newSrcMac : MacAddress}
      (hbound : some inPkt.parsed.destinationMAC = s.virtualMac)
      (hfound : Found network.routes ipv4Pkt.destinationAddress nextHop)
      (hintf : network.getMatchingInterface nextHop.nextHopIp = some intf)
      (hsrc : s.quaggaMac = some newSrcMac) :
      PacketRequest services network s inPkt ipv4Pkt
        ⟨.sdnExternalForward, .pointToPoint
          (sdnExternalIntent services inPkt.receivedFrom intf.connectPoint
            (IpPrefix.valueOf ipv4Pkt.destinationAddress 24) newSrcMac nextHop.nextHopMac)⟩
  | sdnExternalReverse {nextHop : NextHop} {intf : Interface} {newSrcMac : MacAddress}
      (hbound : some inPkt.parsed.destinationMAC = s.virtualMac)
      (hfound : Found network.routes ipv4Pkt.destinationAddress nextHop)
      (hintf : network.getMatchingInterface nextHop.nextHopIp = some intf)
      (hsrc : s.virtualMac = some newSrcMac) :
      PacketRequest services network s inPkt ipv4Pkt
        ⟨.sdnExternalReverse, .pointToPoint
          (sdnExternalIntent services intf.connectPoint inPkt.receivedFrom
            (IpPrefix.valueOf ipv4Pkt.sourceAddress 24) newSrcMac inPkt.parsed.sourceMAC)⟩
  | externalSdnForward {host : Host} {newSrcMac : MacAddress}
      (hother : some inPkt.parsed.destinationMAC ≠ s.virtualMac)
      (hbound : some inPkt.parsed.destinationMAC = s.quaggaMac)
      (hhost : host ∈ network.hosts) (hip : ipv4Pkt.destinationAddress ∈ host.ipAddresses)
      (hsrc : s.virtualMac = some newSrcMac) :
      PacketRequest services network s inPkt ipv4Pkt
        ⟨.externalSdnForward, .pointToPoint
          (sdnExternalIntent services inPkt.receivedFrom host.location
            (IpPrefix.valueOf ipv4Pkt.destinationAddress 24) newSrcMac host.mac)⟩
  | externalSdnReverse {host : Host} {newSrcMac : MacAddress}
      (hother : some inPkt.parsed.destinationMAC ≠ s.virtualMac)
      (hbound : some inPkt.parsed.destinationMAC = s.quaggaMac) (hvirtual : s.virtualMac.isSome)
      (hhost : host ∈ network.hosts) (hip : ipv4Pkt.destinationAddress ∈ host.ipAddresses)
      (hsrc : s.quaggaMac = some newSrcMac) :
      PacketRequest services network s inPkt ipv4Pkt
        ⟨.externalSdnReverse, .pointToPoint
          (sdnExternalIntent services host.location inPkt.receivedFrom
            (IpPrefix.valueOf ipv4Pkt.sourceAddress 24) newSrcMac inPkt.parsed.sourceMAC)⟩

/-- The packet may set the flag: it is not set, and there are routes. -/
def MayBuild (network : Network) (s : State) : Prop :=
  s.hasBuildTransitIntents = false ∧ network.routes ≠ []

section Packet

variable {services : Services} {network : Network} {s t : State} {inPkt : InboundPacket}
  {ipv4Pkt : IPv4} {A : Submission → Prop} {T : Prop}

/-- The ingress points before the transit loop are ports of peers. -/
theorem keeps_peerPoints (peersIp : List Ip4Address) :
    Keeps (Extends A T t) (peerPoints network peersIp) fun points =>
      ∀ p ∈ points, network.PeerPoint peersIp p := by
  refine keeps_foldlM (fun points ip hip hpoints => ?_) (by simp)
  refine (keeps_orThrow _).bind fun intf hintf => keeps_pure fun p hp => ?_
  rcases Finset.mem_insert.mp hp with rfl | hp
  · exact ⟨ip, hip, intf, hintf, rfl⟩
  · exact hpoints p hp

/-- What the shared set of ingress points holds throughout the transit loop. -/
def IngressWithin (network : Network) (peersIp : List Ip4Address) (locals : TransitLocals) : Prop :=
  ∀ p ∈ locals.ingressPoints, network.PeerPoint peersIp p ∨ network.EgressPoint p

theorem keeps_transitRoute {peersIp : List Ip4Address} {info : RouteInfo}
    {locals : TransitLocals} (hbuilt : s.hasBuildTransitIntents = false)
    (hpeers : s.peersIp = some peersIp) (hinfo : info ∈ network.routes)
    (hlocals : IngressWithin network peersIp locals) :
    Keeps (Extends (PacketRequest services network s inPkt ipv4Pkt) (MayBuild network s) t)
      (transitRoute services network s.quaggaMac locals info) (IngressWithin network peersIp) := by
  refine (keeps_setFlag ⟨hbuilt, List.ne_nil_of_mem hinfo⟩).bind fun _ _ =>
    (keeps_orThrow _).bind fun route hroute => (keeps_orThrow _).bind fun intf hintf => ?_
  -- from here on the builder can throw, with the flag already set
  have hlead := Network.leadsTo_eq_some hroute hintf
  have hrest : ∀ p ∈ locals.ingressPoints.erase intf.connectPoint,
      network.PeerPoint peersIp p ∨ network.EgressPoint p :=
    fun p hp => hlocals p (Finset.mem_of_mem_erase hp)
  refine (keeps_transit fun mac hmac => ?_).bind fun _ _ => keeps_pure fun p hp => ?_
  · exact .transit hbuilt hpeers hinfo hlead hmac (Finset.notMem_erase _ _) hrest
  · rcases Finset.mem_insert.mp hp with rfl | hp
    · exact .inr ⟨info, hinfo, _, hlead⟩
    · exact hrest p hp

theorem keeps_buildTransitIntents (hbuilt : s.hasBuildTransitIntents = false) :
    Keeps (Extends (PacketRequest services network s inPkt ipv4Pkt) (MayBuild network s) t)
      (buildTransitIntents services network s.quaggaMac s.peersIp) fun _ => True := by
  refine (keeps_orThrow _).bind fun peersIp hpeers =>
    (keeps_peerPoints peersIp).bind fun points hpoints => ?_
  refine (keeps_foldlM (I := IngressWithin network peersIp) (fun locals table htable hlocals =>
    keeps_foldlM (fun locals info hinfo hlocals => ?_) hlocals)
      fun p hp => .inl (hpoints p hp)).bind fun _ _ => keeps_pure trivial
  exact keeps_transitRoute hbuilt hpeers
    (List.mem_flatten.mpr ⟨table, htable, hinfo⟩) hlocals

theorem keeps_transitTraffic :
    Keeps (Extends (PacketRequest services network s inPkt ipv4Pkt) (MayBuild network s) t)
      (transitTraffic services network s) fun _ => True :=
  keeps_ite (fun _ => keeps_pure trivial) fun hbuilt =>
    keeps_buildTransitIntents (Bool.eq_false_iff.mpr hbuilt)

theorem keeps_scanTable {dstIp : Ip4Address} {nextHop : NextHop} {routes : List RouteInfo}
    (table : List RouteInfo) (hfound : Found routes dstIp nextHop) :
    Keeps (Extends A T t) (scanTable dstIp nextHop table) (Found (routes ++ table) dstIp) := by
  unfold scanTable
  cases hfind : table.find? (·.ipPrefix = IpPrefix.valueOf dstIp 24) with
  | none =>
    refine keeps_pure ?_
    -- no match in this table: the locals stay as the earlier tables left them
    rcases hfound with ⟨info, hinfo, hmatch⟩ | hnone
    · exact .inl ⟨info, List.mem_append_left _ hinfo, hmatch⟩
    · refine .inr fun info hinfo => ?_
      rcases List.mem_append.mp hinfo with hinfo | hinfo
      · exact hnone info hinfo
      · simpa using List.find?_eq_none.mp hfind info hinfo
  | some info =>
    refine (keeps_orThrow _).bind fun route hroute => keeps_pure (.inl ⟨info, ?_, ?_, hroute⟩)
    · exact List.mem_append_right _ (List.mem_of_find?_eq_some hfind)
    · simpa using List.find?_some hfind

theorem keeps_findNextHop (dstIp : Ip4Address) (nextHop : NextHop) :
    Keeps (Extends A T t) (findNextHop network dstIp nextHop) (Found network.routes dstIp) := by
  refine keeps_foldlM_done (I := fun tables => Found tables.flatten dstIp)
    (fun tables table hop hfound => ?_) [] (.inr (by simp)) network.routeTables
  rw [List.flatten_append, List.flatten_singleton]
  exact keeps_scanTable table hfound

theorem keeps_sdnExternalBranch {nextHop : NextHop}
    (hbound : some inPkt.parsed.destinationMAC = s.virtualMac)
    (hfound : Found network.routes ipv4Pkt.destinationAddress nextHop) :
    Keeps (Extends (PacketRequest services network s inPkt ipv4Pkt) T t)
      (sdnExternal services network s inPkt ipv4Pkt nextHop) fun _ => True := by
  refine (keeps_orThrow _).bind fun _ hintf => (keeps_sdnExternal fun _ hmac => ?_).bind
    fun _ _ => (keeps_sdnExternal fun _ hmac => ?_).mono fun _ _ => trivial
  · exact .sdnExternalForward hbound hfound hintf hmac
  · exact .sdnExternalReverse hbound hfound hintf hmac

theorem keeps_externalSdnBranch (hother : some inPkt.parsed.destinationMAC ≠ s.virtualMac)
    (hbound : some inPkt.parsed.destinationMAC = s.quaggaMac) :
    Keeps (Extends (PacketRequest services network s inPkt ipv4Pkt) T t)
      (externalSdn services network s inPkt ipv4Pkt) fun _ => True := by
  refine keeps_forM fun host hhost => ?_
  obtain ⟨hhost, hip⟩ := List.mem_filter.mp hhost
  rw [decide_eq_true_eq] at hip
  -- the reverse intent is built only after the forward intent, which needs `virtualMac`
  refine (keeps_sdnExternal fun _ hmac => ?_).bind
    fun _ hvirtual => (keeps_sdnExternal fun _ hmac => ?_).mono fun _ _ => trivial
  · exact .externalSdnForward hother hbound hhost hip hmac
  · exact .externalSdnReverse hother hbound hvirtual hhost hip hmac

theorem keeps_flow (nextHop : NextHop) :
    Keeps (Extends (PacketRequest services network s inPkt ipv4Pkt) T t)
      (flowTraffic services network s inPkt ipv4Pkt nextHop) fun _ => True := by
  refine (keeps_findNextHop _ nextHop).bind fun hop hfound => ?_
  refine keeps_ite (fun hbound => keeps_sdnExternalBranch hbound hfound) fun hother => ?_
  exact keeps_ite (keeps_externalSdnBranch hother) fun _ => keeps_pure trivial

theorem keeps_processRouted :
    Keeps (Extends (PacketRequest services network s inPkt ipv4Pkt) (MayBuild network s) t)
      (processRouted services network s inPkt ipv4Pkt) fun _ => True :=
  keeps_transitTraffic.bind fun hop _ => keeps_flow hop

end Packet

/-- A packet-in that is not a router-bound IPv4 packet leaves the state as it is. -/
theorem finalState_process_of_not_routerBound {services : Services} {network : Network} {s : State}
    {inPkt : InboundPacket} (h : ∀ ipv4Pkt, inPkt.parsed.payload = .ipv4 ipv4Pkt →
      ¬ s.RouterBound inPkt.parsed.destinationMAC) :
    finalState (process services network inPkt) s = s := by
  unfold process
  cases hp : inPkt.parsed.payload with
  | arp arp => rfl
  | other t => rfl
  | ipv4 ipv4Pkt => simp [finalState, h ipv4Pkt hp]

/-- A router-bound packet is handled by `processRouted`. -/
theorem finalState_process_of_routerBound {services : Services} {network : Network} {s : State}
    {inPkt : InboundPacket} {ipv4Pkt : IPv4} (hpay : inPkt.parsed.payload = .ipv4 ipv4Pkt)
    (hbound : s.RouterBound inPkt.parsed.destinationMAC) :
    finalState (process services network inPkt) s =
      finalState (processRouted services network s inPkt ipv4Pkt) s := by
  simp only [finalState, process, hpay, bind_apply, get_apply, hbound, if_true, pure_apply]
  cases processRouted services network s inPkt ipv4Pkt s <;> rfl

/-- **What a packet-in does.** A packet that is not a router-bound IPv4 packet leaves the state
as it is; a router-bound one submits its requests only, whether the call returns or throws. -/
theorem finalState_process (services : Services) (network : Network) (s : State)
    (inPkt : InboundPacket) :
    finalState (process services network inPkt) s = s ∨
      ∃ ipv4Pkt, inPkt.parsed.payload = .ipv4 ipv4Pkt ∧
        s.RouterBound inPkt.parsed.destinationMAC ∧
        Extends (PacketRequest services network s inPkt ipv4Pkt) (MayBuild network s) s
          (finalState (process services network inPkt) s) := by
  by_cases h : ∃ ipv4Pkt, inPkt.parsed.payload = .ipv4 ipv4Pkt ∧
      s.RouterBound inPkt.parsed.destinationMAC
  · obtain ⟨ipv4Pkt, hpay, hbound⟩ := h
    refine .inr ⟨ipv4Pkt, hpay, hbound, ?_⟩
    rw [finalState_process_of_routerBound hpay hbound]
    exact keeps_processRouted.finalState (Extends.refl s)
  · exact .inl (finalState_process_of_not_routerBound fun ipv4Pkt hpay hbound =>
      h ⟨ipv4Pkt, hpay, hbound⟩)

/-! ## Calls that return -/

section Returns

variable {services : Services} {network : Network} {s s' t : State} {inPkt : InboundPacket}
  {ipv4Pkt : IPv4}

theorem mem_of_buildSDNExternalIntent_ok {kind : IntentKind}
    {ingressPoint egressPoint : ConnectPoint} {matchDstIp : IpPrefix}
    {newSrcMac : Option MacAddress} {newDstMac : MacAddress} {u : Unit}
    (h : buildSDNExternalIntent services kind ingressPoint egressPoint matchDstIp newSrcMac
      newDstMac t = .ok u s') :
    ∃ mac, ⟨kind, .pointToPoint
      (sdnExternalIntent services ingressPoint egressPoint matchDstIp mac newDstMac)⟩ ∈
        s'.submitted := by
  obtain ⟨mac, t', hmac, h⟩ := bind_eq_ok.mp h
  -- reading the new source address leaves the state alone
  obtain ⟨-, rfl⟩ := orThrow_eq_ok.mp hmac
  refine ⟨mac, ?_⟩
  unfold submitPointToPoint at h
  split_ifs at h
  · obtain ⟨-, rfl⟩ := EStateM.Result.ok.inj h
    simp
  · cases h

/-- The External-SDN loop, if it gets to its end, has submitted the forward intent of every host
on the way. -/
theorem mem_of_connectHosts_ok {hosts : List Host} {u : Unit}
    (h : hosts.forM (connectHost services s inPkt ipv4Pkt) t = .ok u s') :
    ∀ host ∈ hosts, ∃ mac, ⟨.externalSdnForward, .pointToPoint (sdnExternalIntent services
      inPkt.receivedFrom host.location (IpPrefix.valueOf ipv4Pkt.destinationAddress 24) mac
        host.mac)⟩ ∈ s'.submitted := by
  -- nothing submitted on the way gets lost
  have hany : ∀ (t : State) (host : Host),
      Keeps (Extends (fun _ => True) False t) (connectHost services s inPkt ipv4Pkt host)
        fun _ => True := fun t host =>
    (keeps_sdnExternal fun _ _ => trivial).bind fun _ _ =>
      (keeps_sdnExternal fun _ _ => trivial).mono fun _ _ => trivial
  induction hosts generalizing t with
  | nil => simp
  | cons host hosts ih =>
    obtain ⟨_, t', hhost, hrest⟩ := bind_eq_ok.mp h
    intro host' hhost'
    rcases List.mem_cons.mp hhost' with rfl | hhost'
    -- the first host: its forward intent is kept by everything after it
    · obtain ⟨_, t₁, hforward, hreverse⟩ := bind_eq_ok.mp hhost
      obtain ⟨mac, hmac⟩ := mem_of_buildSDNExternalIntent_ok hforward
      have hafter := (keeps_sdnExternal fun _ _ => trivial).of_ok
        (Extends.refl (A := fun _ => True) (T := False) t₁) hreverse
      have hend := (keeps_forM fun host _ => hany t' host).of_ok (Extends.refl t') hrest
      exact ⟨mac, hend.2.subset (hafter.2.subset hmac)⟩
    · exact ih hrest host' hhost'

/-- A call for a router-bound packet that returns gets through the transit block and through the
flow of the packet itself. -/
theorem flowTraffic_of_process_ok {b : Bool} (hpay : inPkt.parsed.payload = .ipv4 ipv4Pkt)
    (hbound : s.RouterBound inPkt.parsed.destinationMAC)
    (h : process services network inPkt s = .ok b s') :
    ∃ nextHop t u, flowTraffic services network s inPkt ipv4Pkt nextHop t = .ok u s' := by
  simp only [process, hpay, bind_apply, get_apply, hbound, if_true] at h
  cases hr : processRouted services network s inPkt ipv4Pkt s with
  | error e t => simp [hr] at h
  | ok u t =>
    obtain ⟨-, rfl⟩ : true = b ∧ t = s' := by simpa [hr] using h
    obtain ⟨nextHop, t', -, hflow⟩ := bind_eq_ok.mp hr
    exact ⟨nextHop, t', u, hflow⟩

/-- A call for a packet to the virtual address that returns has submitted the reverse intent
towards the sender. -/
theorem mem_of_process_ok_virtual {b : Bool} (hpay : inPkt.parsed.payload = .ipv4 ipv4Pkt)
    (hbound : some inPkt.parsed.destinationMAC = s.virtualMac)
    (h : process services network inPkt s = .ok b s') :
    ∃ cp mac, ⟨.sdnExternalReverse, .pointToPoint (sdnExternalIntent services cp
      inPkt.receivedFrom (IpPrefix.valueOf ipv4Pkt.sourceAddress 24) mac
        inPkt.parsed.sourceMAC)⟩ ∈ s'.submitted := by
  obtain ⟨nextHop, t, u, hflow⟩ := flowTraffic_of_process_ok hpay (.inl hbound) h
  obtain ⟨_, t₁, -, hbranch⟩ := bind_eq_ok.mp hflow
  rw [if_pos hbound] at hbranch
  obtain ⟨intf, t₂, -, hbranch⟩ := bind_eq_ok.mp hbranch
  -- the reverse intent is the last thing the branch submits
  obtain ⟨_, t₃, -, hreverse⟩ := bind_eq_ok.mp hbranch
  exact ⟨intf.connectPoint, mem_of_buildSDNExternalIntent_ok hreverse⟩

/-- A call for a packet to the address of the speaker that returns has submitted the forward
intents towards the hosts the packet is addressed to. -/
theorem mem_of_process_ok_quagga {b : Bool} (hpay : inPkt.parsed.payload = .ipv4 ipv4Pkt)
    (hother : some inPkt.parsed.destinationMAC ≠ s.virtualMac)
    (hbound : some inPkt.parsed.destinationMAC = s.quaggaMac)
    (h : process services network inPkt s = .ok b s') :
    ∀ host ∈ network.hosts, ipv4Pkt.destinationAddress ∈ host.ipAddresses →
      ∃ mac, ⟨.externalSdnForward, .pointToPoint (sdnExternalIntent services inPkt.receivedFrom
        host.location (IpPrefix.valueOf ipv4Pkt.destinationAddress 24) mac host.mac)⟩ ∈
          s'.submitted := by
  intro host hhost hip
  obtain ⟨nextHop, t, u, hflow⟩ := flowTraffic_of_process_ok hpay (.inr hbound) h
  obtain ⟨_, t₁, -, hbranch⟩ := bind_eq_ok.mp hflow
  rw [if_neg hother, if_pos hbound] at hbranch
  have hfound : host ∈ network.getHostsByIp ipv4Pkt.destinationAddress :=
    List.mem_filter.mpr ⟨hhost, by simpa using hip⟩
  exact mem_of_connectHosts_ok hbranch host hfound

end Returns

/-! ## The requests of a configuration event -/

/-- The intents that an event with the configuration `config` can submit. -/
inductive ConfigRequest (services : Services) (network : Network) (config : QuaggaConfig) :
    Submission → Prop
  | bgpOut {quaggaCp : ConnectPoint} {peersIp : List Ip4Address} {peerIp : Ip4Address}
      {intf : Interface} (hcp : config.quaggaCp services = some quaggaCp)
      (hpeers : config.peersIp services = some peersIp) (hpeer : peerIp ∈ peersIp)
      (hintf : network.getMatchingInterface peerIp = some intf) :
      ConfigRequest services network config ⟨.bgpOut, .pointToPoint
        (bgpIntent services quaggaCp intf.connectPoint (IpPrefix.valueOf peerIp 24))⟩
  | bgpIn {quaggaCp : ConnectPoint} {peersIp : List Ip4Address} {peerIp : Ip4Address}
      {intf : Interface} {address : InterfaceIpAddress}
      (hcp : config.quaggaCp services = some quaggaCp)
      (hpeers : config.peersIp services = some peersIp) (hpeer : peerIp ∈ peersIp)
      (hintf : network.getMatchingInterface peerIp = some intf)
      (haddress : intf.ipAddressesList.head? = some address) :
      ConfigRequest services network config ⟨.bgpIn, .pointToPoint
        (bgpIntent services intf.connectPoint quaggaCp address.subnetAddress)⟩

/-- From `s` to `s'`, fields were only assigned from `config`, and only its requests were
submitted. -/
structure Reconfigured (services : Services) (network : Network) (config : QuaggaConfig)
    (s s' : State) : Prop where
  quaggaCp : s'.quaggaCp = s.quaggaCp ∨ s'.quaggaCp = config.quaggaCp services
  quaggaMac : s'.quaggaMac = s.quaggaMac ∨ s'.quaggaMac = config.quaggaMac services
  virtualIp : s'.virtualIp = s.virtualIp ∨ s'.virtualIp = config.virtualIp services
  virtualMac : s'.virtualMac = s.virtualMac ∨ s'.virtualMac = config.virtualMac services
  peersIp : s'.peersIp = s.peersIp ∨ s'.peersIp = config.peersIp services
  hasBuildTransitIntents : s'.hasBuildTransitIntents = s.hasBuildTransitIntents
  submitted : ∃ new, s'.submitted = s.submitted ++ new ∧
    ∀ sub ∈ new, ConfigRequest services network config sub

section Config

variable {services : Services} {network : Network} {config : QuaggaConfig} {s : State}

theorem Reconfigured.refl : Reconfigured services network config s s :=
  ⟨.inl rfl, .inl rfl, .inl rfl, .inl rfl, .inl rfl, rfl, [], by simp, by simp⟩

theorem Reconfigured.of_mem {s' : State} (h : Reconfigured services network config s s')
    {sub : Submission} (hsub : sub ∈ s'.submitted) :
    sub ∈ s.submitted ∨ ConfigRequest services network config sub :=
  mem_or_of_mem_appended h.submitted hsub

theorem keeps_buildBGPIntent {kind : IntentKind} {ingressPoint egressPoint : ConnectPoint}
    {matchDstIp : IpPrefix} (h : ConfigRequest services network config
      ⟨kind, .pointToPoint (bgpIntent services ingressPoint egressPoint matchDstIp)⟩) :
    Keeps (Reconfigured services network config s)
      (buildBGPIntent services kind ingressPoint egressPoint matchDstIp) fun _ => True := by
  refine keeps_ite (fun _ => keeps_modify fun s' hs' => ?_) fun _ => keeps_throw
  exact { hs' with submitted := appended_trans hs'.submitted ⟨_, rfl, by simpa using h⟩ }

theorem keeps_connectPeer {quaggaCp : ConnectPoint} {peersIp : List Ip4Address}
    {peerIp : Ip4Address} (hcp : config.quaggaCp services = some quaggaCp)
    (hpeers : config.peersIp services = some peersIp) (hpeer : peerIp ∈ peersIp) :
    Keeps (Reconfigured services network config s)
      (connectPeer services network quaggaCp peerIp) fun _ => True :=
  (keeps_orThrow _).bind fun _ hintf =>
    (keeps_buildBGPIntent (.bgpOut hcp hpeers hpeer hintf)).bind fun _ _ =>
      (keeps_orThrow _).bind fun _ haddress =>
        keeps_buildBGPIntent (.bgpIn hcp hpeers hpeer hintf haddress)

end Config

/-- **What a configuration event does.** An event that is not for the application leaves the
state as it is; any other only assigns fields from its configuration and only submits its
requests, whether the call returns or throws. -/
theorem finalState_event (services : Services) (network : Network) (s : State)
    (e : NetworkConfigEvent QuaggaConfig) :
    finalState (QuaggaConfigListener.event services network e) s = s ∨
      ∃ config, e.read = some config ∧ Reconfigured services network config s
        (finalState (QuaggaConfigListener.event services network e) s) := by
  unfold QuaggaConfigListener.event
  cases hread : e.read with
  | none => exact .inl rfl
  | some config =>
    refine .inr ⟨config, rfl, Keeps.finalState (Q := fun _ => True) ?_ Reconfigured.refl⟩
    -- the five assignments, then the loop over the peers
    refine (keeps_orThrow _).bind fun quaggaCp hcp => (keeps_modify fun s' hs' =>
      { hs' with quaggaCp := .inr hcp.symm }).bind fun _ _ => ?_
    refine (keeps_orThrow _).bind fun quaggaMac hmac => (keeps_modify fun s' hs' =>
      { hs' with quaggaMac := .inr hmac.symm }).bind fun _ _ => ?_
    refine (keeps_orThrow _).bind fun virtualIp hip => (keeps_modify fun s' hs' =>
      { hs' with virtualIp := .inr hip.symm }).bind fun _ _ => ?_
    refine (keeps_orThrow _).bind fun virtualMac hvmac => (keeps_modify fun s' hs' =>
      { hs' with virtualMac := .inr hvmac.symm }).bind fun _ _ => ?_
    refine (keeps_orThrow _).bind fun peersIp hpeers => (keeps_modify fun s' hs' =>
      { hs' with peersIp := .inr hpeers.symm }).bind fun _ _ => ?_
    exact keeps_forM fun peerIp hpeer => keeps_connectPeer hcp hpeers hpeer

/-! ## The requests of an event -/

/-- The intents that an event can submit in the state `s`. -/
def EventRequest (services : Services) (s : State) : Event → Submission → Prop
  | .config network e, sub =>
    ∃ config, e.read = some config ∧ ConfigRequest services network config sub
  | .packetIn network inPkt, sub =>
    ∃ ipv4Pkt, inPkt.parsed.payload = .ipv4 ipv4Pkt ∧
      PacketRequest services network s inPkt ipv4Pkt sub

/-- **What an event submits**: it only appends, and only its requests. -/
theorem submitted_appended (services : Services) (s : State) (e : Event) :
    ∃ new, (next services s e).submitted = s.submitted ++ new ∧
      ∀ sub ∈ new, EventRequest services s e sub := by
  cases e with
  | config network e =>
    rw [next]
    rcases finalState_event services network s e with h | ⟨config, hread, h⟩
    · exact ⟨[], by rw [h, List.append_nil], by simp⟩
    · obtain ⟨new, hnew, hall⟩ := h.submitted
      exact ⟨new, hnew, fun sub hsub => ⟨config, hread, hall sub hsub⟩⟩
  | packetIn network inPkt =>
    rw [next]
    rcases finalState_process services network s inPkt with h | ⟨ipv4Pkt, hpay, -, h⟩
    · exact ⟨[], by rw [h, List.append_nil], by simp⟩
    · obtain ⟨new, hnew, hall⟩ := h.submitted
      exact ⟨new, hnew, fun sub hsub => ⟨ipv4Pkt, hpay, hall sub hsub⟩⟩

theorem request_of_mem_next {services : Services} {s : State} {e : Event} {sub : Submission}
    (hsub : sub ∈ (next services s e).submitted) :
    sub ∈ s.submitted ∨ EventRequest services s e sub :=
  mem_or_of_mem_appended (submitted_appended services s e) hsub

end VRouter
