import OnosApps.VRouter.PacketOrder

/-!
# The virtual router: the next hop of a packet

The lookup compares the prefixes of the routes with the /24 of the destination, and leaves one
table at the first match only, so that the last table with a match decides. If no prefix is
that /24, the locals keep what they had: the next hop of the last route if the call has run the
transit loop, and the default otherwise. This module says when the next hop is that of a
longest prefix that contains the destination.

## Main definitions

* `Network.Longest`: a route of the longest prefix that contains an address
* `Network.IsFound`: the route that the lookup finds
* `ByLookup`: a property of the next hop, by what the lookup finds
* `UsesHop`: an intent of the SDN-external branch leads to a next hop
* `RoutesRight`: the condition on the routes under which the next hop is right

## Main results

* `byLookup_iff`: the outcome of the lookup
* `next_hop_longest_iff`: when the next hop is that of the longest prefix
* `stray_packet_forwarded`: a packet that no route contains
-/

namespace VRouter

open Onos Runs

/-! ## The outcome of the lookup -/

namespace Network

variable (network : Network) (dstIp : Ip4Address)

/-- The route is of a longest prefix that contains the address. -/
def Longest (info : RouteInfo) : Prop :=
  info ∈ network.routes ∧ info.ipPrefix.contains dstIp ∧
    ∀ info' ∈ network.routes, info'.ipPrefix.contains dstIp →
      info'.ipPrefix.prefixLength ≤ info.ipPrefix.prefixLength

/-- The route that the lookup finds: the first one with the /24 of the address in the last table
that has one. -/
def IsFound (info : RouteInfo) : Prop :=
  ∃ tables table tables', network.routeTables = tables ++ table :: tables' ∧
    table.find? (·.ipPrefix = IpPrefix.valueOf dstIp 24) = some info ∧
    ∀ table' ∈ tables', ∀ info' ∈ table', info'.ipPrefix ≠ IpPrefix.valueOf dstIp 24

end Network

section Lookup

variable {network : Network} {dstIp : Ip4Address} {info : RouteInfo}

theorem Network.IsFound.mem (h : network.IsFound dstIp info) :
    info ∈ network.routes ∧ info.ipPrefix = IpPrefix.valueOf dstIp 24 := by
  obtain ⟨tables, table, tables', htables, hfind, -⟩ := h
  refine ⟨List.mem_flatten.mpr ⟨table, by simp [htables], List.mem_of_find?_eq_some hfind⟩, ?_⟩
  simpa using List.find?_some hfind

theorem foldlM_lookupTable_of_not {tables : List (List RouteInfo)}
    (h : ∀ table ∈ tables, ∀ info ∈ table, info.ipPrefix ≠ IpPrefix.valueOf dstIp 24)
    (nextHop : NextHop) : tables.foldlM (lookupTable dstIp) nextHop = some nextHop := by
  induction tables with
  | nil => rfl
  | cons table tables ih =>
    have hnone : table.find? (·.ipPrefix = IpPrefix.valueOf dstIp 24) = none :=
      List.find?_eq_none.mpr fun info hinfo => by simpa using h table (by simp) info hinfo
    rw [List.foldlM_cons, lookupTable_of_find?_eq_none hnone]
    exact ih fun table' htable' => h table' (by simp [htable'])

/-- Without a match, the locals keep what they had. -/
theorem lookup_of_not_found24 (h : ¬ network.Found24 dstIp) (nextHop : NextHop) :
    network.lookup dstIp nextHop = some nextHop :=
  foldlM_lookupTable_of_not (fun table htable info hinfo hsame =>
    h ⟨info, List.mem_flatten.mpr ⟨table, htable, hinfo⟩, hsame⟩) nextHop

theorem exists_isFound (h : network.Found24 dstIp) : ∃ info, network.IsFound dstIp info := by
  -- the last table with a match is the first one from behind
  obtain ⟨table, hlast⟩ : ∃ table, network.routeTables.reverse.find? (fun table =>
      (table.find? (·.ipPrefix = IpPrefix.valueOf dstIp 24)).isSome) = some table := by
    obtain ⟨info, hinfo, hsame⟩ := h
    obtain ⟨table, htable, hinfo⟩ := List.mem_flatten.mp hinfo
    rw [← Option.isSome_iff_exists, List.find?_isSome]
    refine ⟨table, List.mem_reverse.mpr htable, List.find?_isSome.mpr ⟨info, hinfo, ?_⟩⟩
    exact decide_eq_true hsame
  obtain ⟨hfind, after, before, hreverse, hafter⟩ := List.find?_eq_some_iff_append.mp hlast
  obtain ⟨info, hfind⟩ := Option.isSome_iff_exists.mp hfind
  refine ⟨info, before.reverse, table, after.reverse, ?_, hfind,
    fun table' htable' info' hinfo' => ?_⟩
  · rw [← List.reverse_reverse network.routeTables, hreverse]
    simp
  · have hnone := hafter table' (List.mem_reverse.mp htable')
    rw [Bool.not_eq_true', Option.isSome_eq_false_iff, Option.isNone_iff_eq_none] at hnone
    simpa using List.find?_eq_none.mp hnone info' hinfo'

/-- The tables before the one with the last match can only throw. -/
theorem lookup_of_isFound (hresolved : ∀ info ∈ network.routes, info.bestRoute.isSome)
    (h : network.IsFound dstIp info) {route : ResolvedRoute} (hroute : info.bestRoute = some route)
    (nextHop : NextHop) :
    network.lookup dstIp nextHop = some ⟨route.nextHop, route.nextHopMac⟩ := by
  obtain ⟨tables, table, tables', htables, hfind, hrest⟩ := h
  obtain ⟨hop, hhop⟩ := Option.isSome_iff_exists.mp (lookup_isSome hresolved dstIp nextHop)
  rw [Network.lookup, htables, List.foldlM_append] at hhop ⊢
  obtain ⟨hop₁, hhop₁, -⟩ := Option.bind_eq_some_iff.mp hhop
  rw [hhop₁]
  show ((table :: tables').foldlM (lookupTable dstIp) hop₁) = _
  rw [List.foldlM_cons, lookupTable_of_find?_eq_some hfind, hroute]
  exact foldlM_lookupTable_of_not hrest _

/-- The lookup leaves the next hop of the route that it finds. -/
theorem bestRoute_of_isFound (hresolved : ∀ info ∈ network.routes, info.bestRoute.isSome)
    (h : network.IsFound dstIp info) {hop nextHop : NextHop}
    (hlookup : network.lookup dstIp hop = some nextHop) :
    info.bestRoute = some ⟨nextHop.nextHopIp, nextHop.nextHopMac⟩ := by
  obtain ⟨route, hbest⟩ := Option.isSome_iff_exists.mp (hresolved info h.mem.1)
  rw [lookup_of_isFound hresolved h hbest, Option.some.injEq] at hlookup
  rw [hbest, ← hlookup]

/-- The locals after the transit loop are those of the last route. -/
theorem bestRoute_of_getLast? (hresolved : ∀ info ∈ network.routes, info.bestRoute.isSome)
    {s : State} {last : RouteInfo} (hbuilt : s.hasBuildTransitIntents = false)
    (hlast : network.routes.getLast? = some last) :
    last.bestRoute = some ⟨(hopAfter network s).nextHopIp, (hopAfter network s).nextHopMac⟩ := by
  obtain ⟨route, hbest⟩ := Option.isSome_iff_exists.mp
    (hresolved last (List.mem_of_getLast? hlast))
  obtain ⟨infos, hinfos⟩ := List.getLast?_eq_some_iff.mp hlast
  rw [hopAfter, if_neg (by simp [hbuilt]), hinfos, List.foldl_append, List.foldl_cons,
    List.foldl_nil, RouteInfo.hop, hbest, Option.elim_some]

/-- If the transit loop is not run, the locals are the defaults. -/
theorem hopAfter_of_skipped {s : State}
    (h : s.hasBuildTransitIntents = true ∨ network.routes = []) : hopAfter network s = {} := by
  rcases h with hbuilt | hempty
  · rw [hopAfter, if_pos hbuilt]
  · simp [hopAfter, hempty]

/-- The port and the address that the locals stand for; none if there is no such port. -/
def Network.hopTo (network : Network) (nextHop : NextHop) : Option (ConnectPoint × MacAddress) :=
  (network.pointOf nextHop.nextHopIp).map (·, nextHop.nextHopMac)

theorem leadsTo_eq_hopTo {nextHop : NextHop}
    (hbest : info.bestRoute = some ⟨nextHop.nextHopIp, nextHop.nextHopMac⟩) :
    network.leadsTo info = network.hopTo nextHop := by
  rw [Network.leadsTo, hbest, Option.bind_some, Network.hopTo, Network.pointOf, Option.map_map]
  rfl

variable (network) in
/-- The property `P` of the next hop, by what the lookup finds: the route with the /24 of the
address; the last route, if there is none and the call runs the transit loop; the default, if there
is none and it does not. -/
structure ByLookup (s : State) (dstIp : Ip4Address)
    (P : Option (ConnectPoint × MacAddress) → Prop) : Prop where
  found : ∀ info, network.IsFound dstIp info → P (network.leadsTo info)
  missed : ¬ network.Found24 dstIp → s.hasBuildTransitIntents = false →
    ∀ info ∈ network.routes.getLast?, P (network.leadsTo info)
  skipped : ¬ network.Found24 dstIp → s.hasBuildTransitIntents = true ∨ network.routes = [] →
    P (network.hopTo {})

/-- **The outcome of the lookup**: it has a property exactly when what the lookup finds has it. -/
theorem byLookup_iff (hresolved : ∀ info ∈ network.routes, info.bestRoute.isSome) {s : State}
    {nextHop : NextHop} (hlookup : network.lookup dstIp (hopAfter network s) = some nextHop)
    {P : Option (ConnectPoint × MacAddress) → Prop} :
    ByLookup network s dstIp P ↔ P (network.hopTo nextHop) := by
  by_cases hfound : network.Found24 dstIp
  · have hleads : ∀ info, network.IsFound dstIp info →
        network.leadsTo info = network.hopTo nextHop :=
      fun info hinfo => leadsTo_eq_hopTo (bestRoute_of_isFound hresolved hinfo hlookup)
    obtain ⟨info, hinfo⟩ := exists_isFound hfound
    constructor
    · exact fun h => hleads info hinfo ▸ h.found info hinfo
    · exact fun h => ⟨fun info' hinfo' => (hleads info' hinfo').symm ▸ h,
        fun hnot => absurd hfound hnot, fun hnot => absurd hfound hnot⟩
  have hnot : ∀ info, ¬ network.IsFound dstIp info := fun info hinfo => hfound ⟨info, hinfo.mem⟩
  rw [lookup_of_not_found24 hfound, Option.some.injEq] at hlookup
  subst hlookup
  by_cases hskip : s.hasBuildTransitIntents = true ∨ network.routes = []
  · have hlast : s.hasBuildTransitIntents = false → network.routes.getLast? = none := by
      intro hbuilt
      rw [hskip.resolve_left (by simp [hbuilt]), List.getLast?_nil]
    rw [hopAfter_of_skipped hskip]
    constructor
    · exact fun h => h.skipped hfound hskip
    · refine fun h => ⟨fun info hinfo => absurd hinfo (hnot info), ?_, fun _ _ => h⟩
      intro _ hbuilt info hinfo
      rw [hlast hbuilt] at hinfo
      cases hinfo
  · obtain ⟨hbuilt, hroutes⟩ := not_or.mp hskip
    rw [Bool.not_eq_true] at hbuilt
    have hlast := List.getLast?_eq_some_getLast hroutes
    have hleads : network.leadsTo _ = network.hopTo (hopAfter network s) :=
      leadsTo_eq_hopTo (bestRoute_of_getLast? hresolved hbuilt hlast)
    constructor
    · exact fun h => hleads ▸ h.missed hfound hbuilt _ hlast
    · refine fun h => ⟨fun info hinfo => absurd hinfo (hnot info), ?_,
        fun _ hskip' => absurd hskip' hskip⟩
      intro _ _ info hinfo
      rw [← Option.some.inj (hlast.symm.trans hinfo), hleads]
      exact h

end Lookup

/-! ## The next hop and the longest prefix -/

/-- An intent of the SDN-external branch leads to the next hop `a`: the forward intent to its port
and its address, and the reverse intent from its port. -/
def UsesHop (sub : Submission) (a : ConnectPoint × MacAddress) : Prop :=
  (sub.kind = .sdnExternalForward →
    sub.intent.egressPoint = a.1 ∧ sub.intent.treatment.ethDst = some a.2) ∧
  (sub.kind = .sdnExternalReverse → sub.intent.ingressPoints = {a.1})

section Right

variable (services : Services) (network : Network) (s : State) (inPkt : InboundPacket)
  (dstIp : Ip4Address)

/-- If the builder accepts an intent from the port of the packet to the next hop `a`, then `a` is
the next hop of a route of the longest prefix. -/
def LeadsRight (a : ConnectPoint × MacAddress) : Prop :=
  services.checks.pointToPoint inPkt.receivedFrom a.1 →
    ∃ info, network.Longest dstIp info ∧ network.leadsTo info = some a

/-- The routes lead right, by what the lookup finds. -/
def RoutesRight : Prop :=
  ByLookup network s dstIp fun o => ∀ a ∈ o, LeadsRight services network inPkt dstIp a

variable {services network s inPkt dstIp}

theorem forall_hopTo_iff {nextHop : NextHop} {P : ConnectPoint × MacAddress → Prop} :
    (∀ a ∈ network.hopTo nextHop, P a) ↔
      ∀ p ∈ network.pointOf nextHop.nextHopIp, P (p, nextHop.nextHopMac) := by
  rw [Network.hopTo]
  cases network.pointOf nextHop.nextHopIp with
  | none => simp
  | some p => simp

theorem sdnExternalAttempts_of_pointOf {ipv4Pkt : IPv4} {nextHop : NextHop} {p : ConnectPoint}
    (hp : network.pointOf nextHop.nextHopIp = some p) :
    sdnExternalAttempts services network s inPkt ipv4Pkt nextHop =
      [sdnExternalAttempt services .sdnExternalForward inPkt.receivedFrom p
          (IpPrefix.valueOf ipv4Pkt.destinationAddress 24) s.quaggaMac nextHop.nextHopMac,
        sdnExternalAttempt services .sdnExternalReverse p inPkt.receivedFrom
          (IpPrefix.valueOf ipv4Pkt.sourceAddress 24) s.virtualMac inPkt.parsed.sourceMAC] := by
  obtain ⟨intf, hintf, rfl⟩ := Option.map_eq_some_iff.mp hp
  rw [sdnExternalAttempts, hintf, Option.elim_some]

/-- The intents of the SDN-external branch lead to the outcome of the lookup. -/
theorem usesHop_of_mem {ipv4Pkt : IPv4} {nextHop : NextHop} {p : ConnectPoint} {sub : Submission}
    (hp : network.pointOf nextHop.nextHopIp = some p)
    (hsub : some sub ∈ sdnExternalAttempts services network s inPkt ipv4Pkt nextHop) :
    UsesHop sub (p, nextHop.nextHopMac) := by
  rw [sdnExternalAttempts_of_pointOf hp] at hsub
  rcases List.mem_pair.mp hsub with hsub | hsub
  · obtain ⟨-, mac, -, rfl⟩ := sdnExternalAttempt_eq_some.mp hsub.symm
    exact ⟨fun _ => ⟨rfl, rfl⟩, fun h => by cases h⟩
  · obtain ⟨-, mac, -, rfl⟩ := sdnExternalAttempt_eq_some.mp hsub.symm
    exact ⟨fun h => (by cases h), fun _ => rfl⟩

/-- What the branch submits uses a right next hop exactly when the outcome of the lookup leads
right, or the address of the speaker is missing. -/
theorem forall_usesHop_iff {ipv4Pkt : IPv4} {nextHop : NextHop} :
    (∀ sub ∈ succeeded (sdnExternalAttempts services network s inPkt ipv4Pkt nextHop),
        ∃ info, network.Longest dstIp info ∧ ∃ a, network.leadsTo info = some a ∧ UsesHop sub a) ↔
      (s.quaggaMac.isSome → ∀ a ∈ network.hopTo nextHop,
        LeadsRight services network inPkt dstIp a) := by
  rw [forall_hopTo_iff]
  cases hp : network.pointOf nextHop.nextHopIp with
  | none =>
    rw [Network.pointOf, Option.map_eq_none_iff] at hp
    simp [sdnExternalAttempts, hp]
  | some p =>
    constructor
    · intro h hmac p' hp' hcheck
      obtain rfl := Option.some.inj hp'
      obtain ⟨mac, hmac⟩ := Option.isSome_iff_exists.mp hmac
      have hforward : sdnExternalAttempt services .sdnExternalForward inPkt.receivedFrom p
          (IpPrefix.valueOf ipv4Pkt.destinationAddress 24) s.quaggaMac nextHop.nextHopMac =
          some ⟨.sdnExternalForward, .pointToPoint (sdnExternalIntent services inPkt.receivedFrom p
            (IpPrefix.valueOf ipv4Pkt.destinationAddress 24) mac nextHop.nextHopMac)⟩ :=
        sdnExternalAttempt_eq_some.mpr ⟨hcheck, mac, hmac, rfl⟩
      obtain ⟨info, hlongest, a, hlead, huse, -⟩ := h _ (by
        rw [sdnExternalAttempts_of_pointOf hp, hforward, succeeded_some_cons]
        exact List.mem_cons_self)
      -- the forward intent shows the port and the address of the next hop
      obtain ⟨hegress, hdst⟩ := huse rfl
      refine ⟨info, hlongest, hlead.trans (congrArg some ?_)⟩
      exact Prod.ext hegress.symm (Option.some.inj hdst).symm
    · intro h sub hsub
      have hmem := mem_of_mem_succeeded hsub
      rw [sdnExternalAttempts_of_pointOf hp] at hsub
      -- without the forward intent the branch submits nothing
      cases hforward : sdnExternalAttempt services .sdnExternalForward inPkt.receivedFrom p
          (IpPrefix.valueOf ipv4Pkt.destinationAddress 24) s.quaggaMac nextHop.nextHopMac with
      | none =>
        rw [hforward] at hsub
        cases hsub
      | some forward =>
        obtain ⟨hcheck, mac, hmac, -⟩ := sdnExternalAttempt_eq_some.mp hforward
        obtain ⟨info, hlongest, hlead⟩ := h (by rw [hmac, Option.isSome_some]) p rfl hcheck
        exact ⟨info, hlongest, _, hlead, usesHop_of_mem hp hmem⟩

end Right

/-- What holds for the SDN-external intents of a call holds for the attempts of the branch, if the
call gets there. -/
theorem forall_sdnExternal_iff (services : Services) {network : Network} {s : State}
    {inPkt : InboundPacket} {ipv4Pkt : IPv4} (hpay : inPkt.parsed.payload = .ipv4 ipv4Pkt)
    (hvirtual : some inPkt.parsed.destinationMAC = s.virtualMac) {nextHop : NextHop}
    (hlookup : network.lookup ipv4Pkt.destinationAddress (hopAfter network s) = some nextHop)
    {P : Submission → Prop} :
    (∀ sub ∈ submittedBy services s (.packetIn network inPkt),
        sub.kind = .sdnExternalForward ∨ sub.kind = .sdnExternalReverse → P sub) ↔
      (PassesTransit network s →
        ∀ sub ∈ succeeded (sdnExternalAttempts services network s inPkt ipv4Pkt nextHop),
          P sub) := by
  have hsubs := filter_flow_submittedBy services network (s := s) hpay (.inl hvirtual)
  rw [flowAttempts, hlookup, Option.elim_some, if_pos hvirtual] at hsubs
  rw [← none_notMem_blockAttempts_iff services]
  constructor
  · intro h hblock sub hsub
    rw [if_neg hblock] at hsubs
    rw [← hsubs] at hsub
    refine h sub (List.mem_of_mem_filter hsub) ?_
    rw [hsubs] at hsub
    exact kind_of_mem_sdnExternalAttempts (mem_of_mem_succeeded hsub)
  · intro h sub hsub hkind
    -- an intent of the branch is no transit intent
    have hmem : sub ∈ (submittedBy services s (.packetIn network inPkt)).filter
        (·.kind ≠ .transit) := by
      refine List.mem_filter.mpr ⟨hsub, ?_⟩
      rcases hkind with hkind | hkind <;> simp [hkind]
    rw [hsubs] at hmem
    split_ifs at hmem with hblock
    · cases hmem
    · exact h hblock sub hmem

/-- **When the next hop is that of the longest prefix.** Let every route be resolved. The intents
that the SDN-external branch submits for a packet lead to the next hop of a route of the longest
prefix that contains its destination exactly when, if the call gets to the branch with the
address of the speaker configured, the routes lead right: the route with the /24 of the
destination, or else the last route or the default. -/
theorem next_hop_longest_iff (services : Services) {network : Network} {s : State}
    {inPkt : InboundPacket} {ipv4Pkt : IPv4}
    (hresolved : ∀ info ∈ network.routes, info.bestRoute.isSome)
    (hpay : inPkt.parsed.payload = .ipv4 ipv4Pkt)
    (hvirtual : some inPkt.parsed.destinationMAC = s.virtualMac) :
    (∀ sub ∈ submittedBy services s (.packetIn network inPkt),
        sub.kind = .sdnExternalForward ∨ sub.kind = .sdnExternalReverse →
        ∃ info, network.Longest ipv4Pkt.destinationAddress info ∧
          ∃ a, network.leadsTo info = some a ∧ UsesHop sub a) ↔
      (PassesTransit network s → s.quaggaMac.isSome →
        RoutesRight services network s inPkt ipv4Pkt.destinationAddress) := by
  obtain ⟨nextHop, hlookup⟩ := Option.isSome_iff_exists.mp
    (lookup_isSome hresolved ipv4Pkt.destinationAddress (hopAfter network s))
  rw [forall_sdnExternal_iff services hpay hvirtual hlookup]
  refine imp_congr_right fun _ => ?_
  rw [forall_usesHop_iff, RoutesRight, byLookup_iff hresolved hlookup]

/-- No route of the deployment is longer than /24, so a packet for which the lookup finds a route
goes where the longest prefix leads. -/
theorem next_hop_longest_deployed :
    let s := next deployed .init (.config (deployedWith 0) deployedEvent)
    ∀ sub ∈ submittedBy deployed s (.packetIn (deployedWith 3) deployedPacket),
      sub.kind = .sdnExternalForward ∨ sub.kind = .sdnExternalReverse →
      ∃ info, (deployedWith 3).Longest ⟨0xc0a83302⟩ info ∧
        ∃ a, (deployedWith 3).leadsTo info = some a ∧ UsesHop sub a := by
  intro s
  have hvirtual : some deployedPacket.parsed.destinationMAC = s.virtualMac := by decide
  refine (next_hop_longest_iff deployed (deployedWith_valid 3).resolved
    (show deployedPacket.parsed.payload = .ipv4 ⟨⟨0xc0a83201⟩, ⟨0xc0a83302⟩, .udp 4000 53⟩ from rfl)
    hvirtual).mpr fun _ _ => ?_
  have hfound : (deployedWith 3).Found24 ⟨0xc0a83302⟩ :=
    ⟨⟨IpPrefix.valueOf ⟨0xc0a83300⟩ 24, some ⟨⟨0xac1e0102⟩, ⟨0xe1⟩⟩⟩, by decide, by decide⟩
  refine ⟨fun info hinfo a ha _ => ?_, fun hnot => absurd hfound hnot,
    fun hnot => absurd hfound hnot⟩
  obtain ⟨hmem, hsame⟩ := hinfo.mem
  refine ⟨info, ⟨hmem, ?_, fun info' hinfo' _ => ?_⟩, ha⟩
  · rw [hsame]
    exact IpPrefix.contains_valueOf.mpr rfl
  · rw [hsame]
    exact (show ∀ info' ∈ (deployedWith 3).routes, info'.ipPrefix.prefixLength ≤ 24 by decide)
      info' hinfo'

/-- **A packet that no route contains** is forwarded to the next hop of the last route, if it is
the first router-bound packet. -/
theorem stray_packet_forwarded :
    let s := next deployed .init (.config (deployedWith 0) deployedEvent)
    (∀ info ∈ (deployedWith 3).routes,
        info.bestRoute.isSome ∧ info.ipPrefix.contains ⟨0x08080808⟩ = false) ∧
      ∃ sub ∈ submittedBy deployed s (.packetIn (deployedWith 3) strayPacket),
        sub.kind = .sdnExternalForward := by
  decide

end VRouter
