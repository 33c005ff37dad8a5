import OnosApps.VRouter.TransitLoop

/-!
# The virtual router: transit intents

The transit intents are built once: the first router-bound packet that finds routes builds an
intent for each of them, and marks them as built. Routes that are added, changed or withdrawn
afterwards do not change them, so the intents follow the routing tables exactly as long as the
tables are what they were at that packet.

## Main definitions

* `FollowsTables`: the transit intents are those of the routes in the tables
* `Network.Valid`: every peer and every next hop is at a port, and the peers are at two ports
* `builtRoutes`: the routes at the first router-bound packet that finds any

## Main results

* `Network.Valid.passesTransit`: in a valid network the transit block returns
* `transitStep_next`: what one event does to the transit intents
* `transits_run`: over a run, the transit intents are those of `builtRoutes`
* `transit_built_once`: when the transit intents follow the tables
* `route_added_later`: a route that gets no intent
-/

namespace VRouter

open Onos Runs

/-! ## Transit intents and routes -/

namespace Network

variable (network : Network)

/-- What the transit intents for all routes in the tables carry. -/
def carriedRoutes : List (Option IpPrefix × ConnectPoint × Option MacAddress) :=
  network.routes.filterMap network.carries

/-- Every peer is at a port, every route is resolved and its next hop is at a port, and two peers
are at different ports. -/
structure Valid (peersIp : List Ip4Address) : Prop where
  peers : ∀ ip ∈ peersIp, (network.pointOf ip).isSome
  routes : ∀ info ∈ network.routes, (network.leadsTo info).isSome
  two_ports : ∃ ip ∈ peersIp, ∃ ip' ∈ peersIp, network.pointOf ip ≠ network.pointOf ip'

end Network

/-- Every route in the tables has a transit intent with its prefix and its current next hop, and
every transit intent is for a route in the tables, with its current next hop. -/
def FollowsTables (network : Network) (s : State) : Prop :=
  (∀ info ∈ network.routes, ∃ sub ∈ s.submitted, sub.kind = .transit ∧
      network.carries info = some sub.carried) ∧
    ∀ sub ∈ s.submitted, sub.kind = .transit →
      ∃ info ∈ network.routes, network.carries info = some sub.carried

section Carried

variable {network : Network} {s : State}

theorem mem_carriedRoutes {r : Option IpPrefix × ConnectPoint × Option MacAddress} :
    r ∈ network.carriedRoutes ↔ ∃ info ∈ network.routes, network.carries info = some r := by
  simp [Network.carriedRoutes]

theorem followsTables_iff {peersIp : List Ip4Address} (hvalid : network.Valid peersIp) :
    FollowsTables network s ↔ ∀ r, r ∈ transits s ↔ r ∈ network.carriedRoutes := by
  simp only [mem_transits, mem_carriedRoutes]
  constructor
  · rintro ⟨hroutes, hintents⟩ r
    constructor
    · rintro ⟨sub, hsub, hkind, rfl⟩
      exact hintents sub hsub hkind
    · rintro ⟨info, hinfo, hr⟩
      obtain ⟨sub, hsub, hkind, hcarries⟩ := hroutes info hinfo
      exact ⟨sub, hsub, hkind, Option.some.inj (hcarries.symm.trans hr)⟩
  · intro hsame
    refine ⟨fun info hinfo => ?_, fun sub hsub hkind => (hsame _).mp ⟨sub, hsub, hkind, rfl⟩⟩
    obtain ⟨a, ha⟩ := Option.isSome_iff_exists.mp (hvalid.routes info hinfo)
    have hr : network.carries info = some (some info.ipPrefix, a.1, some a.2) := by
      simp [Network.carries, ha]
    obtain ⟨sub, hsub, hkind, hcarried⟩ := (hsame _).mpr ⟨info, hinfo, hr⟩
    exact ⟨sub, hsub, hkind, hr.trans (congrArg some hcarried.symm)⟩

end Carried

/-! ## The transit block in a valid network -/

namespace Network.Valid

variable {network : Network} {peersIp : List Ip4Address} {s : State}

theorem peersAtPorts (hvalid : network.Valid peersIp) (hpeers : s.peersIp = some peersIp) :
    PeersAtPorts network s :=
  ⟨peersIp, hpeers, hvalid.peers⟩

/-- The ports of two peers are different, so one of them is left whatever the egress point is. -/
theorem admits (hvalid : network.Valid peersIp) (hpeers : s.peersIp = some peersIp) :
    Admits network (s.peerPoints network) network.routes := by
  intro info _ a _
  obtain ⟨ip, hip, ip', hip', hne⟩ := hvalid.two_ports
  obtain ⟨p, hp⟩ := Option.isSome_iff_exists.mp (hvalid.peers ip hip)
  obtain ⟨q, hq⟩ := Option.isSome_iff_exists.mp (hvalid.peers ip' hip')
  have hmem : p ∈ s.peerPoints network ∧ q ∈ s.peerPoints network := by
    rw [State.peerPoints, hpeers, Option.getD_some, List.mem_toFinset, List.mem_toFinset]
    exact ⟨List.mem_filterMap.mpr ⟨ip, hip, hp⟩, List.mem_filterMap.mpr ⟨ip', hip', hq⟩⟩
  by_cases hpa : p = a.1
  · refine ⟨q, Finset.mem_erase.mpr ⟨fun hqa => hne ?_, hmem.2⟩⟩
    rw [hp, hq, hpa, hqa]
  · exact ⟨p, Finset.mem_erase.mpr ⟨hpa, hmem.1⟩⟩

/-- The transit block returns. -/
theorem passesTransit (hvalid : network.Valid peersIp) (hmac : s.quaggaMac.isSome)
    (hpeers : s.peersIp = some peersIp) : PassesTransit network s :=
  .inr ⟨hvalid.peersAtPorts hpeers, .inr ⟨hmac, hvalid.admits hpeers, hvalid.routes⟩⟩

theorem succeeded_carries (hvalid : network.Valid peersIp) :
    succeeded (network.routes.map network.carries) = network.carriedRoutes := by
  have hall : none ∉ network.routes.map network.carries := by
    intro hnone
    obtain ⟨info, hinfo, hcarries⟩ := List.mem_map.mp hnone
    have hlead := hvalid.routes info hinfo
    rw [Option.map_eq_none_iff.mp hcarries] at hlead
    cases hlead
  calc succeeded (network.routes.map network.carries)
      = ((succeeded (network.routes.map network.carries)).map some).filterMap id := by simp
    _ = network.carriedRoutes := by
      rw [map_some_succeeded hall, List.filterMap_map]
      rfl

/-- The transit block submits one intent for each route, if the transit intents are not built. -/
theorem carried_blockAttempts (hvalid : network.Valid peersIp) (services : Services)
    (hmac : s.quaggaMac.isSome) (hpeers : s.peersIp = some peersIp) :
    (succeeded (blockAttempts services network s)).map Submission.carried =
      if s.hasBuildTransitIntents then [] else network.carriedRoutes := by
  cases hbuilt : s.hasBuildTransitIntents with
  | true =>
    rw [blockAttempts, if_pos hbuilt]
    rfl
  | false =>
    rw [carried_of_buildsTransit services
      ⟨hbuilt, hvalid.peersAtPorts hpeers, hmac, hvalid.admits hpeers⟩, hvalid.succeeded_carries]
    rfl

end Network.Valid

/-! ## Runs in a fixed configuration -/

/-- A state with a configuration, in which no transit intent is built yet. -/
structure Ready (peersIp : List Ip4Address) (s : State) : Prop where
  quaggaMac : s.quaggaMac.isSome
  peersIp : s.peersIp = some peersIp
  notBuilt : s.hasBuildTransitIntents = false
  transits : transits s = []

namespace Event

/-- A packet-in in a valid network, or a configuration event that is not for the application. -/
def Valid (peersIp : List Ip4Address) : Event → Prop
  | .config _ e => e.read = none
  | .packetIn network _ => network.Valid peersIp

/-- A router-bound packet that finds routes. -/
def FindsRoutes (s : State) (e : Event) : Bool :=
  e.Routed s && !e.network.routes.isEmpty

end Event

/-- What the transit intents for the routes at the first router-bound packet that finds any
carry; nothing, if there is no such packet. -/
def builtRoutes (s : State) (es : List Event) :
    List (Option IpPrefix × ConnectPoint × Option MacAddress) :=
  match es.find? (Event.FindsRoutes s) with
  | some e => e.network.carriedRoutes
  | none => []

section Run

variable {services : Services} {peersIp : List Ip4Address} {s s' : State} {e : Event}

/-- The fields that decide how a packet is handled are the same. -/
structure SameConfig (s s' : State) : Prop where
  quaggaMac : s'.quaggaMac = s.quaggaMac
  virtualMac : s'.virtualMac = s.virtualMac
  peersIp : s'.peersIp = s.peersIp

theorem SameConfig.trans {t : State} (h : SameConfig s t) (h' : SameConfig t s') :
    SameConfig s s' :=
  ⟨h'.quaggaMac.trans h.quaggaMac, h'.virtualMac.trans h.virtualMac, h'.peersIp.trans h.peersIp⟩

theorem SameConfig.findsRoutes_eq (h : SameConfig s s') (e : Event) :
    e.FindsRoutes s' = e.FindsRoutes s := by
  have hbound : ∀ mac, s'.RouterBound mac ↔ s.RouterBound mac := by
    intro mac
    rw [State.RouterBound, State.RouterBound, h.quaggaMac, h.virtualMac]
  cases e with
  | config network e => rfl
  | packetIn network inPkt => simp [Event.FindsRoutes, Event.Routed, hbound]

/-- What one event does to the transit intents: if it finds routes and none are built, they are
built, and in all other cases they stay. -/
structure TransitStep (s : State) (e : Event) (s' : State) : Prop where
  config : SameConfig s s'
  flag : s'.hasBuildTransitIntents = (s.hasBuildTransitIntents || e.FindsRoutes s)
  transits : transits s' = transits s ++
    if s.hasBuildTransitIntents = false ∧ e.FindsRoutes s then e.network.carriedRoutes else []

theorem TransitStep.of_not_findsRoutes (h : e.FindsRoutes s = false) : TransitStep s e s :=
  ⟨⟨rfl, rfl, rfl⟩, by simp [h], by simp [h]⟩

/-- A packet-in in a valid network, as one step. -/
theorem transitStep_next (services : Services) (hmac : s.quaggaMac.isSome)
    (hpeers : s.peersIp = some peersIp) (hvalid : e.Valid peersIp) :
    TransitStep s e (next services s e) := by
  cases e with
  | config network e =>
    have hunread : QuaggaConfigListener.event services network e = pure () := by
      rw [QuaggaConfigListener.event, show e.read = none from hvalid]
    rw [next, hunread]
    exact .of_not_findsRoutes rfl
  | packetIn network inPkt =>
    cases hrouted : (Event.packetIn network inPkt).Routed s with
    | true =>
      obtain ⟨ipv4Pkt, hpay, hbound⟩ := Event.exists_of_routed hrouted
      obtain ⟨hflag, htransits⟩ := transits_next_of_routed services (i := .packetIn inPkt) hrouted
      have hfinds : (Event.packetIn network inPkt).FindsRoutes s = !network.routes.isEmpty := by
        simp [Event.FindsRoutes, hrouted, Event.network]
      refine ⟨?_, hflag.trans ?_, htransits.trans ?_⟩
      · rw [next, finalState_process_eq services network hpay hbound]
        exact ⟨rfl, rfl, rfl⟩
      · rw [flagAfter, peerPorts_of_peersAtPorts (hvalid.peersAtPorts hpeers), hfinds]
        rfl
      · rw [hvalid.carried_blockAttempts services hmac hpeers, hfinds]
        -- with empty tables there is nothing to carry, and both sides agree
        by_cases hempty : network.routes = []
        · simp [hempty, Network.carriedRoutes]
        · cases s.hasBuildTransitIntents <;> simp [hempty, Event.network]
    | false =>
      rw [next_of_not_routed services hrouted]
      exact .of_not_findsRoutes (by rw [Event.FindsRoutes, hrouted, Bool.false_and])

theorem builtRoutes_snoc (es : List Event) (e : Event) :
    builtRoutes s (es ++ [e]) = builtRoutes s es ++
      if es.any (Event.FindsRoutes s) = false ∧ e.FindsRoutes s then e.network.carriedRoutes
      else [] := by
  simp only [builtRoutes, List.find?_append]
  cases hfind : es.find? (Event.FindsRoutes s) with
  | some e' =>
    have hany : es.any (Event.FindsRoutes s) = true :=
      List.any_eq_true.mpr ⟨e', List.mem_of_find?_eq_some hfind, List.find?_some hfind⟩
    simp [hany]
  | none =>
    have hany : es.any (Event.FindsRoutes s) = false := by
      simpa using hfind
    cases hfinds : e.FindsRoutes s <;> simp [hany, hfinds]

/-- **Over a run**, the configuration stays, the flag says whether a router-bound packet has found
routes, and the transit intents are those for the routes that the first such packet has found. -/
theorem transits_run (services : Services) (hs : Ready peersIp s) {es : List Event}
    (hes : ∀ e ∈ es, e.Valid peersIp) :
    SameConfig s (run (next services) s es) ∧
      (run (next services) s es).hasBuildTransitIntents = es.any (Event.FindsRoutes s) ∧
      transits (run (next services) s es) = builtRoutes s es := by
  induction es using List.reverseRecOn with
  | nil => exact ⟨⟨rfl, rfl, rfl⟩, hs.notBuilt, hs.transits⟩
  | append_singleton es e ih =>
    obtain ⟨hconfig, hflag, htransits⟩ := ih fun e he => hes e (by simp [he])
    rw [run_snoc]
    -- the configuration is still that of `s`, so the step is as it would be in `s`
    have hstep := transitStep_next services (e := e) (hconfig.quaggaMac ▸ hs.quaggaMac)
      (hconfig.peersIp.trans hs.peersIp) (hes e (by simp))
    have hfinds := hconfig.findsRoutes_eq e
    refine ⟨hconfig.trans hstep.config, ?_, ?_⟩
    · rw [hstep.flag, hflag, hfinds, List.any_append, List.any_cons, List.any_nil, Bool.or_false]
    · rw [hstep.transits, htransits, hflag, hfinds, builtRoutes_snoc]

end Run

/-- **Transit intents are built once.** In a fixed configuration, the transit intents are at any
time those for the routes that the first router-bound packet has found when there were any, with
the next hops they had then. Right after a router-bound packet, they follow the tables exactly
when the routes in the tables lead where those routes led. -/
theorem transit_built_once (services : Services) {peersIp : List Ip4Address} {s : State}
    (hs : Ready peersIp s) (es : List Event) (network : Network) (inPkt : InboundPacket)
    (hes : ∀ e ∈ es ++ [.packetIn network inPkt], Event.Valid peersIp e) :
    transits (run (next services) s (es ++ [.packetIn network inPkt])) =
        builtRoutes s (es ++ [.packetIn network inPkt]) ∧
      (FollowsTables network (run (next services) s (es ++ [.packetIn network inPkt])) ↔
        ∀ r, r ∈ builtRoutes s (es ++ [.packetIn network inPkt]) ↔ r ∈ network.carriedRoutes) := by
  obtain ⟨-, -, htransits⟩ := transits_run services hs hes
  have hvalid : network.Valid peersIp := hes (.packetIn network inPkt) (by simp)
  exact ⟨htransits, htransits ▸ followsTables_iff hvalid⟩

/-! ## The deployed configuration, while its routes arrive -/

theorem deployedWith_valid (n : ℕ) : (deployedWith n).Valid deployedPeers where
  -- the ports of addresses do not depend on the routes
  peers := show ∀ ip ∈ deployedPeers, ((deployedWith 0).pointOf ip).isSome by decide
  routes := by
    have hall : ∀ info ∈ deployedRoutes, ((deployedWith 0).leadsTo info).isSome := by decide
    intro info hinfo
    rw [Network.routes, deployedWith, List.flatten_singleton] at hinfo
    exact hall info (List.mem_of_mem_take hinfo)
  two_ports := show ∃ ip ∈ deployedPeers, ∃ ip' ∈ deployedPeers,
    (deployedWith 0).pointOf ip ≠ (deployedWith 0).pointOf ip' by decide

theorem deployed_ready :
    Ready deployedPeers (next deployed .init (.config (deployedWith 0) deployedEvent)) :=
  ⟨by decide, by decide, by decide, by decide⟩

/-- The first packet finds one route and the second one all three: the one transit intent stays
the only one. -/
theorem transit_built_once_one_route :
    transits (run (next deployed) (next deployed .init (.config (deployedWith 0) deployedEvent))
        [.packetIn (deployedWith 1) deployedPacket, .packetIn (deployedWith 3) deployedPacket]) =
      (deployedWith 1).carriedRoutes :=
  (transit_built_once deployed deployed_ready [.packetIn (deployedWith 1) deployedPacket]
    (deployedWith 3) deployedPacket (by
      intro e he
      simp only [List.singleton_append, List.mem_cons, List.not_mem_nil, or_false] at he
      rcases he with rfl | rfl
      · exact deployedWith_valid 1
      · exact deployedWith_valid 3)).1

instance (network : Network) (s : State) : Decidable (FollowsTables network s) :=
  inferInstanceAs (Decidable (_ ∧ _))

/-- **A route that gets no intent**: two routes arrive after the first router-bound packet, and
right after the next one they still have no transit intent. -/
theorem route_added_later :
    (deployedWith 1).Valid deployedPeers ∧ (deployedWith 3).Valid deployedPeers ∧
      ¬ FollowsTables (deployedWith 3) (run (next deployed) .init
        [.config (deployedWith 0) deployedEvent, .packetIn (deployedWith 1) deployedPacket,
          .packetIn (deployedWith 3) deployedPacket]) :=
  ⟨deployedWith_valid 1, deployedWith_valid 3, by decide⟩

end VRouter
