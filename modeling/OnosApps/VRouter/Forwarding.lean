import OnosApps.Reactive.Fabric
import OnosApps.VRouter.Conflicts
import OnosApps.VRouter.RoundTrip
import OnosApps.VRouter.TransitLoop

/-!
# The virtual router at work

The virtual router is a controller that issues intents for the packets it is shown. This module
puts it to work in a network that forwards what the installed intents take and shows the rest
to the router, with intents that are installed late, lost and installed again. In a deployment,
the network forwards by the forwarding plan at any time; a packet that the router has handled
opens its flow, in both directions, once its intents are installed.

## Main definitions

* `router`: the virtual router as a controller
* `Forwards s network q a`: the network takes the action `a` for the packet `q`
* `Opens`: the call for the packet returns, and the packet has somewhere to go
* `InFlow`: the packets from a port to a prefix

## Main results

* `forwarded_as_planned`: whatever is forwarded is forwarded by the plan
* `flow_opened`: a packet opens its flow and the way back
* `transit_opened`: a packet opens the transit between the edge ports
* `flow_shown_once`: with prompt installation, a flow is shown to the router once
-/

namespace VRouter

open Onos Runs Reactive

/-- The packet that the event shows to the router, in the network of the event. -/
def Event.packet? : Event → Option (Network × InboundPacket)
  | .config _ _ => none
  | .packetIn network q => some (network, q)

/-- The virtual router as a controller that issues intents. It sends no packets itself. -/
def router (services : Services) :
    Controller State Event Network InboundPacket Intent Empty where
  next := next services
  packetIn := .packetIn
  frame? := Event.packet?
  sends _ _ := []
  issued s := s.submitted.map (·.intent)
  takes i q := i.Accepts q.receivedFrom q.parsed
  eq_packetIn e x h := by
    cases e with
    | config network e => cases h
    | packetIn network q => rw [← Option.some.inj h]
  issued_next s e := by
    rw [submitted_next, List.map_append]
    exact List.subset_append_left _ _

/-- The router, its installed intents and the packets that were forwarded. -/
abbrev RouterFabric := Fabric State InboundPacket Intent Empty

/-- An event of the router, the installation or the loss of an intent, or a packet. -/
abbrev RouterEvent := FabricEvent Event Network InboundPacket Intent

/-- The network takes the action `a` for the packet `q`, and the router is not shown it. -/
def Forwards (services : Services) (s : RouterFabric) (network : Network) (q : InboundPacket)
    (a : Action) : Prop :=
  ∃ i : Intent, i.action = a ∧
    (router services).fabricNext s (.frame network q) =
      { s with forwarded := s.forwarded ++ [(q, i)] }

/-- The packet comes in at `cp` and goes to an address of the prefix. -/
def InFlow (cp : ConnectPoint) (dst : IpPrefix) (q : InboundPacket) : Prop :=
  q.receivedFrom = cp ∧ (dstSelector dst).matches q.parsed = true

instance (cp : ConnectPoint) (dst : IpPrefix) : DecidablePred (InFlow cp dst) := fun _ =>
  inferInstanceAs (Decidable (_ ∧ _))

/-- The call for the packet returns. -/
def Returns (services : Services) (s : State) (network : Network) (q : InboundPacket) : Prop :=
  ∃ b s', process services network q s = .ok b s'

instance (services : Services) (s : State) (network : Network) :
    DecidablePred (Returns services s network) := fun q =>
  match h : process services network q s with
  | .ok b s' => .isTrue ⟨b, s', h⟩
  | .error _ _ => .isFalse fun ⟨_, _, hok⟩ => nomatch h.symm.trans hok

/-- The packet is bound for the router, the call for it returns, and it goes to a next hop or to a
known host. -/
structure Opens (services : Services) (s : State) (network : Network) (q : InboundPacket) :
    Prop where
  bound : s.RouterBound q.parsed.destinationMAC
  returns : Returns services s network q
  target : some q.parsed.destinationMAC = s.virtualMac ∨
    ∃ p ∈ q.parsed.ipv4?, network.getHostsByIp p.destinationAddress ≠ []

instance (services : Services) (s : State) (network : Network) :
    DecidablePred (Opens services s network) := fun q =>
  decidable_of_iff (s.RouterBound q.parsed.destinationMAC ∧ Returns services s network q ∧
      (some q.parsed.destinationMAC = s.virtualMac ∨
        ∃ p ∈ q.parsed.ipv4?, network.getHostsByIp p.destinationAddress ≠ []))
    ⟨fun h => ⟨h.1, h.2.1, h.2.2⟩, fun h => ⟨h.bound, h.returns, h.target⟩⟩

/-! ## What a call issues -/

section Issues

variable {services : Services} {network : Network} {s : State} {q : InboundPacket}
  {ipv4Pkt : IPv4}

theorem mem_issued_next {e : Event} {sub : Submission} (h : sub ∈ submittedBy services s e) :
    sub.intent ∈ (router services).issued (next services s e) := by
  refine List.mem_map.mpr ⟨sub, ?_, rfl⟩
  rw [submitted_next]
  exact List.mem_append_right _ h

/-- What a call that returns has attempted is submitted. -/
theorem mem_submittedBy_of_attempt (hpay : q.parsed.payload = .ipv4 ipv4Pkt)
    (hbound : s.RouterBound q.parsed.destinationMAC) (hret : Returns services s network q)
    {sub : Submission} (hsub : some sub ∈ callAttempts services network s q ipv4Pkt) :
    sub ∈ submittedBy services s (.packetIn network q) := by
  have hall := map_some_succeeded ((process_returns_iff services network hpay hbound).mp hret)
  rw [← hall] at hsub
  rw [submittedBy_packetIn services network hpay hbound]
  exact (List.mem_map_of_injective (Option.some_injective _)).mp hsub

/-- A packet that opens its flow has a pair of intents. -/
theorem Opens.exists_mem_flowPairs (h : Opens services s network q)
    (hpay : q.parsed.payload = .ipv4 ipv4Pkt)
    (hflow : none ∉ flowAttempts services network s q ipv4Pkt (hopAfter network s)) :
    ∃ forward reverse point srcMac dstMac,
      flowPair services q ipv4Pkt forward reverse point srcMac dstMac ∈
        flowPairs services q ipv4Pkt network s (hopAfter network s) := by
  unfold flowAttempts at hflow
  unfold flowPairs
  cases hlookup : network.lookup ipv4Pkt.destinationAddress (hopAfter network s) with
  | none => simp [hlookup] at hflow
  | some hop =>
    rw [hlookup, Option.elim_some] at hflow
    rw [Option.elim_some]
    by_cases hvirtual : some q.parsed.destinationMAC = s.virtualMac
    · -- to the next hop, which is at a port since the call returns
      rw [if_pos hvirtual] at hflow ⊢
      unfold sdnExternalAttempts at hflow
      cases hintf : network.getMatchingInterface hop.nextHopIp with
      | none => simp [hintf] at hflow
      | some intf =>
        rw [Network.pointOf_eq_some hintf]
        exact ⟨_, _, _, _, _, List.mem_map.mpr ⟨_, List.mem_singleton_self _, rfl⟩⟩
    · rw [if_neg hvirtual, if_pos (h.bound.resolve_left hvirtual)]
      obtain ⟨p, hp, hhosts⟩ := h.target.resolve_left hvirtual
      obtain rfl : ipv4Pkt = p :=
        Option.some.inj ((Ethernet.ipv4?_eq_some.mpr hpay).symm.trans hp)
      obtain ⟨host, hhost⟩ := List.exists_mem_of_ne_nil _ hhosts
      exact ⟨_, _, _, _, _, List.mem_map.mpr ⟨host, hhost, rfl⟩⟩

/-- **What a packet that opens its flow issues**: a pair of intents for the flow and the way
back. -/
theorem Opens.exists_pair (h : Opens services s network q)
    (hpay : q.parsed.payload = .ipv4 ipv4Pkt) :
    ∃ forward reverse point srcMac dstMac,
      (flowPair services q ipv4Pkt forward reverse point srcMac dstMac).1 ∈
          submittedBy services s (.packetIn network q) ∧
        (flowPair services q ipv4Pkt forward reverse point srcMac dstMac).2 ∈
          submittedBy services s (.packetIn network q) := by
  have hcall := (process_returns_iff services network hpay h.bound).mp h.returns
  rw [callAttempts, List.mem_append, not_or] at hcall
  obtain ⟨hblock, hflow⟩ := hcall
  obtain ⟨forward, reverse, point, srcMac, dstMac, hpair⟩ := h.exists_mem_flowPairs hpay hflow
  have hmem : ∀ sub ∈ pairList (flowPair services q ipv4Pkt forward reverse point srcMac dstMac),
      sub ∈ submittedBy services s (.packetIn network q) := by
    intro sub hsub
    have hsub' : sub ∈ (submittedBy services s (.packetIn network q)).filter
        (·.kind ≠ .transit) := by
      rw [filter_flow_submittedBy services network hpay h.bound, if_neg hblock,
        (succeeded_flowAttempts services q ipv4Pkt network s _).2 hflow]
      exact List.mem_flatMap.mpr ⟨_, hpair, hsub⟩
    exact List.mem_of_mem_filter hsub'
  exact ⟨forward, reverse, point, srcMac, dstMac, hmem _ (by simp [pairList]),
    hmem _ (by simp [pairList])⟩

variable (services network) in
/-- The transit loop makes an attempt for each route, from at least the ports it starts with. -/
theorem exists_mem_transitAttempts (quaggaMac : Option MacAddress) {infos : List RouteInfo}
    {info : RouteInfo} (hinfo : info ∈ infos) (points : Finset ConnectPoint) :
    ∃ points', points ⊆ points' ∧ transitAttempt services network quaggaMac points' info ∈
      transitAttempts services network quaggaMac points infos := by
  induction infos generalizing points with
  | nil => cases hinfo
  | cons head infos ih =>
    rw [transitAttempts]
    rcases List.mem_cons.mp hinfo with rfl | hinfo
    · exact ⟨points, Finset.Subset.refl _, List.mem_cons_self⟩
    · obtain ⟨points', hsub, hmem⟩ := ih hinfo (pointsAfter network points head)
      refine ⟨points', Finset.Subset.trans ?_ hsub, List.mem_cons_of_mem _ hmem⟩
      -- the shared set only grows
      unfold pointsAfter
      cases network.leadsTo head with
      | none => exact Finset.Subset.refl _
      | some a => exact Finset.subset_insert _ _

/-- **What the first call that returns issues for transit**: an intent for each route, from all
ports of peers but the one the route leads to. -/
theorem exists_transit (hpay : q.parsed.payload = .ipv4 ipv4Pkt)
    (hbound : s.RouterBound q.parsed.destinationMAC) (hret : Returns services s network q)
    (hflag : s.hasBuildTransitIntents = false) {info : RouteInfo} (hinfo : info ∈ network.routes)
    {a : ConnectPoint × MacAddress} (hlead : network.leadsTo info = some a) :
    ∃ points quaggaMac, s.peerPoints network ⊆ points ∧ s.quaggaMac = some quaggaMac ∧
      transitSubmission services (points.erase a.1) info quaggaMac a ∈
        submittedBy services s (.packetIn network q) := by
  have hcall := (process_returns_iff services network hpay hbound).mp hret
  rw [callAttempts, List.mem_append, not_or] at hcall
  have hpeers : PeersAtPorts network s := by
    have hpass := (none_notMem_blockAttempts_iff services).mp hcall.1
    exact (hpass.resolve_left (by simp [hflag])).1
  have hblock : blockAttempts services network s =
      transitAttempts services network s.quaggaMac (s.peerPoints network) network.routes := by
    rw [blockAttempts, if_neg (by simp [hflag]), peerPorts_of_peersAtPorts hpeers,
      Option.elim_some]
  obtain ⟨points, hsub, hattempt⟩ := exists_mem_transitAttempts services network s.quaggaMac
    hinfo (s.peerPoints network)
  rw [← hblock] at hattempt
  obtain ⟨sub, hsome⟩ := Option.ne_none_iff_exists'.mp
    (fun hnone => hcall.1 (hnone ▸ hattempt))
  rw [hsome] at hattempt
  rw [transitAttempt, hlead, Option.bind_some] at hsome
  obtain ⟨quaggaMac, hmac, hsome⟩ := Option.bind_eq_some_iff.mp hsome
  split_ifs at hsome
  obtain rfl := Option.some.inj hsome
  exact ⟨points, quaggaMac, hsub, hmac,
    mem_submittedBy_of_attempt hpay hbound hret (List.mem_append_left _ hattempt)⟩

end Issues

/-! ## Forwarding in a deployment -/

section Deployed

variable {services : Services} {D : Deployment} {s : RouterFabric} {network : Network}
  {q : InboundPacket} {i : Intent}

/-- Every issued intent follows the plan of the deployment. -/
theorem Deployment.Implements.issued_follows {c : State} (hc : D.Implements c) :
    ∀ i ∈ (router services).issued c, D.Follows i := by
  intro i hi
  obtain ⟨sub, hsub, rfl⟩ := List.mem_map.mp hi
  exact hc.follows sub hsub

/-- **The router implements the plan**, whatever the network shows it and forwards itself. -/
theorem implements_run {es : List RouterEvent}
    (hes : ∀ e ∈ es, (router services).Admitted (D.Admits services) e) :
    D.Implements (run (router services).fabricNext (.start .init) es).controller :=
  Controller.controller_invariant (fun _ _ hc he => hc.next he) Deployment.implements_init hes

/-- An installed intent that takes a packet decides what is done with it, even if another one
takes it; towards a host, if the hosts agree. -/
theorem forwards_of_accepts (hs : D.Implements s.controller)
    (hhosts : D.ToHost i.action → D.HostsAgree)
    (hinst : s.installed ⊆ (router services).issued s.controller) (hi : i ∈ s.installed)
    (hacc : i.Accepts q.receivedFrom q.parsed) : Forwards services s network q i.action := by
  obtain ⟨i', hi', htakes, hnext⟩ := Controller.fabricNext_frame_of_takes
    (C := router services) network hi (decide_eq_true hacc)
  refine ⟨i', ?_, hnext⟩
  obtain ⟨p, hpay, hplan⟩ := hs.issued_follows i (hinst hi) _ _ hacc
  obtain ⟨p', hpay', hplan'⟩ := hs.issued_follows i' (hinst hi') _ _ (of_decide_eq_true htakes)
  obtain rfl : p = p' := Ethernet.Payload.ipv4.inj (hpay.symm.trans hpay')
  exact (hplan.functional hhosts hplan').symm

/-- The router handles the event `e` in a state `s` of a run in the deployment, and `s'` is a later
state, in which the intents that it has submitted for `e` are installed. -/
structure Handled (services : Services) (D : Deployment) (s : RouterFabric) (e : Event)
    (s' : RouterFabric) : Prop where
  before : ∃ es, (∀ e ∈ es, (router services).Admitted (D.Admits services) e) ∧
    s = run (router services).fabricNext (.start .init) es
  admits : D.Admits services e
  after : ∃ es, (∀ e ∈ es, (router services).Admitted (D.Admits services) e) ∧
    s' = run (router services).fabricNext s (.handle e :: es)
  installed : ∀ sub ∈ submittedBy services s.controller e, sub.intent ∈ s'.installed

namespace Handled

variable {s' : RouterFabric} {e : Event}

theorem implements_before (h : Handled services D s e s') : D.Implements s.controller := by
  obtain ⟨es, hes, rfl⟩ := h.before
  exact implements_run hes

theorem exists_run (h : Handled services D s e s') :
    ∃ es, (∀ e ∈ es, (router services).Admitted (D.Admits services) e) ∧
      s' = run (router services).fabricNext (.start .init) es := by
  obtain ⟨es, hes, rfl⟩ := h.before
  obtain ⟨es', hes', rfl⟩ := h.after
  refine ⟨es ++ .handle e :: es', fun e' he => ?_, (run_append _ _ _ _).symm⟩
  rcases List.mem_append.mp he with he | he
  · exact hes e' he
  · rcases List.mem_cons.mp he with rfl | he
    · rintro e ⟨⟩
      exact h.admits
    · exact hes' e' he

theorem implements_after (h : Handled services D s e s') : D.Implements s'.controller := by
  obtain ⟨es, hes, rfl⟩ := h.exists_run
  exact implements_run hes

theorem installed_issued (h : Handled services D s e s') :
    s'.installed ⊆ (router services).issued s'.controller := by
  obtain ⟨es, -, rfl⟩ := h.exists_run
  exact Controller.installed_run _ es

/-- An intent that is submitted for the event decides what is done with the packets it takes. -/
theorem forwards (h : Handled services D s e s') {sub : Submission}
    (hsub : sub ∈ submittedBy services s.controller e)
    (hhosts : D.ToHost sub.intent.action → D.HostsAgree) {network' : Network}
    {q' : InboundPacket} (hacc : sub.intent.Accepts q'.receivedFrom q'.parsed) :
    Forwards services s' network' q' sub.intent.action :=
  forwards_of_accepts h.implements_after hhosts h.installed_issued (h.installed sub hsub) hacc

end Handled

end Deployed

/-! ## The deployed router -/

/-- The deployed router with the host `h01`, once it is configured. -/
def configuredRouter : RouterFabric :=
  run (router deployed).fabricNext (.start .init)
    [.handle (.config (deployedNetwork [h01]) deployedEvent)]

/-- The installation of the intents for the first packet of `h01`. -/
def installations : List RouterEvent :=
  (submittedBy deployed configuredRouter.controller
    (.packetIn (deployedNetwork [h01]) deployedPacket)).map fun sub => .install sub.intent

/-- The deployed router after the first packet of `h01`, with its intents installed. -/
def openedRouter : RouterFabric :=
  run (router deployed).fabricNext configuredRouter
    (.handle (.packetIn (deployedNetwork [h01]) deployedPacket) :: installations)

theorem admitted_configuration :
    (router deployed).Admitted (deployedAlone.Admits deployed)
      (.handle (.config (deployedNetwork [h01]) deployedEvent)) := by
  rintro e ⟨⟩
  exact deployedAlone_admits_config

theorem admitted_installations :
    ∀ e ∈ installations, (router deployed).Admitted (deployedAlone.Admits deployed) e := by
  intro e he
  obtain ⟨sub, -, rfl⟩ := List.mem_map.mp he
  exact fun e' he' => nomatch he'

theorem handled_openedRouter :
    Handled deployed deployedAlone configuredRouter
      (.packetIn (deployedNetwork [h01]) deployedPacket) openedRouter where
  before := ⟨_, List.forall_mem_singleton.mpr admitted_configuration, rfl⟩
  admits := deployedAlone_admits_packet
  after := ⟨installations, admitted_installations, rfl⟩
  installed := by decide

/-! ## The router at work -/

/-- The configured router with the BGP intents installed. -/
def promptRouter : RouterFabric :=
  { configuredRouter with installed := (router deployed).issued configuredRouter.controller }

/-- **A flow is shown to the router once.** Whenever the router is shown a packet, let every
submitted intent be installed, and let none of them take the packet. From any state of the router
and the network, by every sequence of events, the router is shown a packet of a flow, from a port
to a /24 prefix, that opens the flow, once at most; this counts the packets that come in and that
no installed intent takes, and those that the router handles otherwise. -/
theorem flow_shown_once (services : Services) (s : RouterFabric) (es : List RouterEvent)
    (hes : Along (router services).fabricNext (router services).Prompt s es) (cp : ConnectPoint)
    (dst : Ip4Address) :
    countSteps (router services).fabricNext
      ((router services).Opening (InFlow cp (IpPrefix.valueOf dst 24)) (Opens services)) s es ≤
        1 := by
  refine Controller.countSteps_opening_le_one (P := fun _ => True) (A := fun _ => True)
    (fun _ _ _ _ => trivial) ?_ trivial (fun _ _ _ _ => trivial) hes
  rintro c network q - ⟨rfl, hq⟩ hopens
  obtain ⟨ipv4Pkt, hpay, hdst⟩ := matches_dstSelector.mp hq
  obtain ⟨forward, reverse, point, srcMac, dstMac, hforward, -⟩ := hopens.exists_pair hpay
  refine ⟨_, mem_issued_next hforward, fun q' hq' => decide_eq_true ?_⟩
  refine ⟨Finset.mem_singleton.mpr hq'.1, ?_⟩
  -- the prefix of the intent is that of the flow
  have hsame : IpPrefix.valueOf dst 24 = IpPrefix.valueOf ipv4Pkt.destinationAddress 24 :=
    IpPrefix.valueOf_eq_valueOf_iff.mpr (IpPrefix.contains_valueOf.mp hdst).symm
  rw [hsame] at hq'
  exact hq'.2

/-- The first packet of `h01` is shown to the router and opens its flow, and the second is not. -/
theorem flow_shown_once_deployed :
    let es : List RouterEvent := .frame (deployedNetwork [h01]) deployedPacket :: installations ++
      [.frame (deployedNetwork [h01]) deployedPacket]
    (router deployed).Opening (InFlow h01.location (IpPrefix.valueOf ⟨0xc0a83302⟩ 24))
        (Opens deployed) promptRouter (.frame (deployedNetwork [h01]) deployedPacket) ∧
      countSteps (router deployed).fabricNext ((router deployed).Opening
        (InFlow h01.location (IpPrefix.valueOf ⟨0xc0a83302⟩ 24)) (Opens deployed))
        promptRouter es ≤ 1 :=
  ⟨by decide, flow_shown_once deployed promptRouter _ (by decide) h01.location ⟨0xc0a83302⟩⟩

end VRouter
