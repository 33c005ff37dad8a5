import OnosApps.VRouter.Attempts

/-!
# The virtual router: what a packet-in does, exactly

The transit block makes one attempt for each route, with a set of ingress points that grows
from iteration to iteration; the flag is set as soon as there is a route. Together with the
attempts for the flow of the packet, this gives the whole effect of a call: its attempts up to
the first that fails, and the flag.

## Main definitions

* `Network.peerPorts`: the ports of the peers, from which the transit loop starts
* `transitAttempts`: the attempts of the transit loop
* `Event.Routed`: the event is a router-bound packet
* `blockAttempts`, `flagAfter`, `hopAfter`: the attempts of the transit block, and the flag and
  the next hop it leaves
* `callAttempts`: the attempts of a call for a router-bound packet

## Main results

* `transitLoop_apply`: the transit loop
* `finalState_process_eq`, `process_returns_iff`: a call for a router-bound packet
-/

namespace VRouter

open Onos Runs

/-! ## The transit loop -/

/-- The ports of the peers; none if a peer is at no port. -/
def Network.peerPorts (network : Network) (peersIp : List Ip4Address) :
    Option (Finset ConnectPoint) :=
  peersIp.foldlM (fun points peerIp => (network.pointOf peerIp).map (insert · points)) ∅

/-- The locals after a route, which keeps the old ones if it is not resolved. -/
def RouteInfo.hop (nextHop : NextHop) (info : RouteInfo) : NextHop :=
  info.bestRoute.elim nextHop fun route => ⟨route.nextHop, route.nextHopMac⟩

/-- The intent of the transit loop for a route that leads to the port and the address `a`. -/
def transitSubmission (services : Services) (ingressPoints : Finset ConnectPoint)
    (info : RouteInfo) (quaggaMac : MacAddress) (a : ConnectPoint × MacAddress) : Submission :=
  ⟨.transit, .multiPointToSinglePoint
    (transitIntent services ingressPoints a.1 info.ipPrefix quaggaMac a.2)⟩

section Loop

variable (services : Services) (network : Network) (quaggaMac : Option MacAddress)

/-- The attempt for one route, with the shared set as it is before the iteration. -/
def transitAttempt (points : Finset ConnectPoint) (info : RouteInfo) : Option Submission :=
  (network.leadsTo info).bind fun a => quaggaMac.bind fun quaggaMac =>
    if services.checks.multiPointToSinglePoint (points.erase a.1) a.1 then
      some (transitSubmission services (points.erase a.1) info quaggaMac a)
    else none

/-- The shared set after the iteration. -/
def pointsAfter (points : Finset ConnectPoint) (info : RouteInfo) : Finset ConnectPoint :=
  (network.leadsTo info).elim points fun a => insert a.1 points

/-- The attempts of the transit loop. -/
def transitAttempts : Finset ConnectPoint → List RouteInfo → List (Option Submission)
  | _, [] => []
  | points, info :: infos =>
    transitAttempt services network quaggaMac points info ::
      transitAttempts (pointsAfter network points info) infos

/-- The state after the submissions `subs` of the transit block. -/
def State.built (s : State) (flag : Bool) (subs : List Submission) : State :=
  { s with hasBuildTransitIntents := flag, submitted := s.submitted ++ subs }

theorem reads_peerPoints (peersIp : List Ip4Address) :
    Reads (peerPoints network peersIp : Handler (Finset ConnectPoint))
      (network.peerPorts peersIp) := by
  refine reads_foldlM (fun points peerIp => ?_) peersIp ∅
  rw [Network.pointOf, Option.map_map]
  exact (reads_orThrow _ _).map _

/-- One iteration of the loop. -/
theorem transitRoute_eq (locals : TransitLocals) (info : RouteInfo) (s : State) :
    (∀ sub, transitAttempt services network quaggaMac locals.ingressPoints info = some sub →
      transitRoute services network quaggaMac locals info s =
        .ok ⟨info.hop locals.nextHop, pointsAfter network locals.ingressPoints info⟩
          (s.built true [sub])) ∧
    (transitAttempt services network quaggaMac locals.ingressPoints info = none →
      ∃ e, transitRoute services network quaggaMac locals info s = .error e (s.built true [])) := by
  unfold transitAttempt transitRoute pointsAfter Network.leadsTo RouteInfo.hop State.built
  cases hroute : info.bestRoute with
  | none => simp
  | some route =>
    cases hintf : network.getMatchingInterface route.nextHop with
    | none => simp [hintf]
    | some intf =>
      cases quaggaMac with
      | none => simp [hintf, buildTransitIntent]
      | some mac =>
        have hpoints : insert intf.connectPoint (locals.ingressPoints.erase intf.connectPoint) =
            insert intf.connectPoint locals.ingressPoints := by
          ext p
          by_cases hp : p = intf.connectPoint <;> simp [hp]
        by_cases hcheck : services.checks.multiPointToSinglePoint
            (locals.ingressPoints.erase intf.connectPoint) intf.connectPoint
        · simp [hintf, buildTransitIntent, hcheck, submit, transitSubmission, hpoints]
        · simp [hintf, buildTransitIntent, hcheck]

theorem State.built_nil {s : State} {flag : Bool} (h : s.hasBuildTransitIntents = flag) :
    s.built flag [] = s := by
  simp [State.built, ← h]

theorem State.built_built (s : State) (flag flag' : Bool) (subs subs' : List Submission) :
    (s.built flag subs).built flag' subs' = s.built flag' (subs ++ subs') := by
  simp [State.built]

/-- **The transit loop** submits the intents of its attempts up to the first that fails, and sets
the flag if there is a route. -/
theorem transitLoop_apply (infos : List RouteInfo) (locals : TransitLocals) (s : State) :
    (none ∉ transitAttempts services network quaggaMac locals.ingressPoints infos →
      ∃ points, infos.foldlM (transitRoute services network quaggaMac) locals s =
        .ok ⟨infos.foldl RouteInfo.hop locals.nextHop, points⟩
          (s.built (s.hasBuildTransitIntents || !infos.isEmpty)
            (succeeded (transitAttempts services network quaggaMac locals.ingressPoints infos)))) ∧
    (none ∈ transitAttempts services network quaggaMac locals.ingressPoints infos →
      ∃ e, infos.foldlM (transitRoute services network quaggaMac) locals s =
        .error e (s.built (s.hasBuildTransitIntents || !infos.isEmpty) (succeeded
          (transitAttempts services network quaggaMac locals.ingressPoints infos)))) := by
  induction infos generalizing locals s with
  | nil =>
    refine ⟨fun _ => ⟨locals.ingressPoints, ?_⟩, fun h => by cases h⟩
    simp [State.built, transitAttempts]
  | cons info infos ih =>
    obtain ⟨hok, herror⟩ := transitRoute_eq services network quaggaMac locals info s
    rw [transitAttempts, List.foldlM_cons, bind_apply, List.isEmpty_cons, Bool.not_false,
      Bool.or_true]
    cases hattempt : transitAttempt services network quaggaMac locals.ingressPoints info with
    | none =>
      -- the first iteration throws, with the flag set
      obtain ⟨e, he⟩ := herror hattempt
      rw [he]
      exact ⟨fun h => by simp at h, fun _ => ⟨e, rfl⟩⟩
    | some sub =>
      rw [hok sub hattempt]
      obtain ⟨ihok, iherror⟩ := ih
        ⟨info.hop locals.nextHop, pointsAfter network locals.ingressPoints info⟩
        (s.built true [sub])
      rw [State.built_built] at ihok iherror
      refine ⟨fun h => ihok ?_, fun h => iherror ?_⟩
      · exact fun hmem => h (List.mem_cons_of_mem _ hmem)
      · simpa using h

end Loop

/-! ## A whole call -/

/-- A packet-in with an IPv4 packet addressed to the router. -/
def Event.Routed (s : State) : Event → Bool
  | .config _ _ => false
  | .packetIn _ inPkt =>
    inPkt.parsed.ipv4?.isSome && decide (s.RouterBound inPkt.parsed.destinationMAC)

section Call

variable (services : Services) (network : Network) (s : State)

/-- The attempts of the transit block. -/
def blockAttempts : List (Option Submission) :=
  if s.hasBuildTransitIntents then []
  else (s.peersIp.bind network.peerPorts).elim [none] fun points =>
    transitAttempts services network s.quaggaMac points network.routes

/-- The flag after the transit block: it is set once the loop over the routes has begun. -/
def flagAfter : Bool :=
  s.hasBuildTransitIntents ||
    (s.peersIp.bind network.peerPorts).isSome && !network.routes.isEmpty

/-- The locals after the transit block: those of the last route, if the loop was run. -/
def hopAfter : NextHop :=
  if s.hasBuildTransitIntents then {} else network.routes.foldl RouteInfo.hop {}

/-- The attempts of a call for a router-bound packet. -/
def callAttempts (inPkt : InboundPacket) (ipv4Pkt : IPv4) : List (Option Submission) :=
  blockAttempts services network s ++
    flowAttempts services network s inPkt ipv4Pkt (hopAfter network s)

/-- **The transit block** of a call in the state `s`. -/
theorem transitTraffic_apply :
    (none ∉ blockAttempts services network s →
      transitTraffic services network s s = .ok (hopAfter network s)
        (s.built (flagAfter network s) (succeeded (blockAttempts services network s)))) ∧
    (none ∈ blockAttempts services network s →
      ∃ e, transitTraffic services network s s =
        .error e (s.built (flagAfter network s)
          (succeeded (blockAttempts services network s)))) := by
  unfold transitTraffic blockAttempts hopAfter flagAfter
  cases hflag : s.hasBuildTransitIntents with
  | true => simp [State.built_nil hflag]
  | false =>
    simp only [Bool.false_eq_true, if_false, buildTransitIntents, bind_apply, Bool.false_or]
    cases hpeers : s.peersIp with
    | none => simp [State.built_nil hflag]
    | some peersIp =>
      have hread := reads_peerPoints network peersIp s
      cases hports : network.peerPorts peersIp with
      | none =>
        obtain ⟨e, he⟩ := hread.2 hports
        simp [he, hports, State.built_nil hflag]
      | some points =>
        have htables := congrFun (foldlM_flatten (transitRoute services network s.quaggaMac)
          network.routeTables ⟨{}, points⟩) s
        obtain ⟨hok, herror⟩ := transitLoop_apply services network s.quaggaMac network.routes
          ⟨{}, points⟩ s
        rw [hflag, Bool.false_or] at hok herror
        simp only [orThrow_some_apply, hread.1 points hports, Option.bind_some, hports,
          Option.elim_some, Option.isSome_some, Bool.true_and, htables]
        refine ⟨fun h => ?_, fun h => ?_⟩
        · obtain ⟨points', hloop⟩ := hok h
          rw [Network.routes] at hloop
          rw [hloop, Network.routes]
          rfl
        · obtain ⟨e, hloop⟩ := herror h
          rw [Network.routes] at hloop
          exact ⟨e, by rw [hloop, Network.routes]⟩

variable (inPkt : InboundPacket) (ipv4Pkt : IPv4)

theorem processRouted_apply :
    (none ∉ callAttempts services network s inPkt ipv4Pkt →
      ∃ u, processRouted services network s inPkt ipv4Pkt s =
        .ok u (s.built (flagAfter network s)
          (succeeded (callAttempts services network s inPkt ipv4Pkt)))) ∧
    (none ∈ callAttempts services network s inPkt ipv4Pkt →
      ∃ e, processRouted services network s inPkt ipv4Pkt s =
        .error e (s.built (flagAfter network s)
          (succeeded (callAttempts services network s inPkt ipv4Pkt)))) := by
  obtain ⟨hok, herror⟩ := transitTraffic_apply services network s
  rw [processRouted, bind_apply, callAttempts]
  by_cases hblock : none ∈ blockAttempts services network s
  · -- the transit block throws, and the flow of the packet is not attempted
    obtain ⟨e, he⟩ := herror hblock
    rw [he, succeeded_append_of_mem hblock]
    exact ⟨fun h => absurd (List.mem_append_left _ hblock) h, fun _ => ⟨e, rfl⟩⟩
  · rw [hok hblock, succeeded_append_of_notMem hblock, ← State.built_built _ (flagAfter network s)]
    have hflow := tries_flowTraffic services network s inPkt ipv4Pkt (hopAfter network s)
      (s.built (flagAfter network s) (succeeded (blockAttempts services network s)))
    refine ⟨fun h => hflow.1 fun h' => h (List.mem_append_right _ h'), fun h => hflow.2 ?_⟩
    exact (List.mem_append.mp h).resolve_left hblock

variable {inPkt ipv4Pkt} {s}

/-- **What a call for a router-bound packet leaves**, whether it returns or throws: the
submissions of its attempts up to the first that fails, and the flag. -/
theorem finalState_process_eq (hpay : inPkt.parsed.payload = .ipv4 ipv4Pkt)
    (hbound : s.RouterBound inPkt.parsed.destinationMAC) :
    finalState (process services network inPkt) s = s.built (flagAfter network s)
      (succeeded (callAttempts services network s inPkt ipv4Pkt)) := by
  rw [finalState_process_of_routerBound hpay hbound, finalState]
  obtain ⟨hok, herror⟩ := processRouted_apply services network s inPkt ipv4Pkt
  by_cases h : none ∈ callAttempts services network s inPkt ipv4Pkt
  · obtain ⟨e, he⟩ := herror h
    rw [he]
  · obtain ⟨u, hu⟩ := hok h
    rw [hu]

/-- A call for a router-bound packet returns exactly when none of its attempts fails. -/
theorem process_returns_iff (hpay : inPkt.parsed.payload = .ipv4 ipv4Pkt)
    (hbound : s.RouterBound inPkt.parsed.destinationMAC) :
    (∃ b s', process services network inPkt s = .ok b s') ↔
      none ∉ callAttempts services network s inPkt ipv4Pkt := by
  obtain ⟨hok, herror⟩ := processRouted_apply services network s inPkt ipv4Pkt
  simp only [process, hpay, bind_apply, get_apply, hbound, if_true, pure_apply]
  by_cases h : none ∈ callAttempts services network s inPkt ipv4Pkt
  · obtain ⟨e, he⟩ := herror h
    simp [he, h]
  · obtain ⟨u, hu⟩ := hok h
    simp [hu, h]

variable {services network}

theorem Event.exists_of_routed
    (h : (Event.packetIn network inPkt).Routed s) :
    ∃ ipv4Pkt, inPkt.parsed.payload = .ipv4 ipv4Pkt ∧
      s.RouterBound inPkt.parsed.destinationMAC := by
  obtain ⟨hsome, hbound⟩ := (Bool.and_eq_true _ _).mp h
  obtain ⟨ipv4Pkt, hip⟩ := Option.isSome_iff_exists.mp hsome
  exact ⟨ipv4Pkt, Ethernet.ipv4?_eq_some.mp hip, of_decide_eq_true hbound⟩

theorem Event.not_routerBound_of_not_routed
    (h : (Event.packetIn network inPkt).Routed s = false) (ipv4Pkt : IPv4)
    (hpay : inPkt.parsed.payload = .ipv4 ipv4Pkt) :
    ¬ s.RouterBound inPkt.parsed.destinationMAC := by
  intro hbound
  simp [Event.Routed, Ethernet.ipv4?_eq_some.mpr hpay, hbound] at h

variable (services) in
/-- A packet that is not router-bound does nothing. -/
theorem next_of_not_routed (h : (Event.packetIn network inPkt).Routed s = false) :
    next services s (.packetIn network inPkt) = s :=
  finalState_process_of_not_routerBound (Event.not_routerBound_of_not_routed h)

theorem kind_of_mem_transitAttempts {quaggaMac : Option MacAddress} {infos : List RouteInfo}
    {points : Finset ConnectPoint} {sub : Submission}
    (h : some sub ∈ transitAttempts services network quaggaMac points infos) :
    sub.kind = .transit := by
  induction infos generalizing points with
  | nil => cases h
  | cons info infos ih =>
    rcases List.mem_cons.mp h with h | h
    · obtain ⟨a, -, h⟩ := Option.bind_eq_some_iff.mp h.symm
      obtain ⟨mac, -, h⟩ := Option.bind_eq_some_iff.mp h
      split_ifs at h
      rw [← Option.some.inj h, transitSubmission]
    · exact ih h

theorem kind_of_mem_blockAttempts {sub : Submission}
    (h : some sub ∈ blockAttempts services network s) : sub.kind = .transit := by
  unfold blockAttempts at h
  split_ifs at h
  · cases h
  · cases hports : s.peersIp.bind network.peerPorts with
    | none => simp [hports] at h
    | some points =>
      rw [hports, Option.elim_some] at h
      exact kind_of_mem_transitAttempts h

theorem kind_of_mem_sdnExternalAttempts {nextHop : NextHop} {sub : Submission}
    (h : some sub ∈ sdnExternalAttempts services network s inPkt ipv4Pkt nextHop) :
    sub.kind = .sdnExternalForward ∨ sub.kind = .sdnExternalReverse := by
  unfold sdnExternalAttempts at h
  cases hintf : network.getMatchingInterface nextHop.nextHopIp with
  | none => simp [hintf] at h
  | some intf =>
    rw [hintf, Option.elim_some] at h
    rcases List.mem_pair.mp h with h | h
    · obtain ⟨-, _, -, rfl⟩ := sdnExternalAttempt_eq_some.mp h.symm
      exact .inl rfl
    · obtain ⟨-, _, -, rfl⟩ := sdnExternalAttempt_eq_some.mp h.symm
      exact .inr rfl

theorem kind_of_mem_hostAttempts {host : Host} {sub : Submission}
    (h : some sub ∈ hostAttempts services s inPkt ipv4Pkt host) :
    sub.kind = .externalSdnForward ∨ sub.kind = .externalSdnReverse := by
  rcases List.mem_pair.mp h with h | h
  · obtain ⟨-, _, -, rfl⟩ := sdnExternalAttempt_eq_some.mp h.symm
    exact .inl rfl
  · obtain ⟨-, _, -, rfl⟩ := sdnExternalAttempt_eq_some.mp h.symm
    exact .inr rfl

theorem kind_of_mem_flowAttempts {nextHop : NextHop} {sub : Submission}
    (h : some sub ∈ flowAttempts services network s inPkt ipv4Pkt nextHop) :
    sub.kind ≠ .transit := by
  unfold flowAttempts at h
  cases hlookup : network.lookup ipv4Pkt.destinationAddress nextHop with
  | none => simp [hlookup] at h
  | some hop =>
    rw [hlookup, Option.elim_some] at h
    split_ifs at h
    · rcases kind_of_mem_sdnExternalAttempts h with hkind | hkind <;> simp [hkind]
    · obtain ⟨host, -, h⟩ := List.mem_flatMap.mp h
      rcases kind_of_mem_hostAttempts h with hkind | hkind <;> simp [hkind]
    · cases h

variable (services network)

theorem submittedBy_packetIn (hpay : inPkt.parsed.payload = .ipv4 ipv4Pkt)
    (hbound : s.RouterBound inPkt.parsed.destinationMAC) :
    submittedBy services s (.packetIn network inPkt) =
      succeeded (callAttempts services network s inPkt ipv4Pkt) :=
  submittedBy_eq (by rw [next, finalState_process_eq services network hpay hbound]; rfl)

/-- The intents a call submits for the flow of its packet: none if the transit block throws. -/
theorem filter_flow_submittedBy (hpay : inPkt.parsed.payload = .ipv4 ipv4Pkt)
    (hbound : s.RouterBound inPkt.parsed.destinationMAC) :
    (submittedBy services s (.packetIn network inPkt)).filter (·.kind ≠ .transit) =
      if none ∈ blockAttempts services network s then []
      else succeeded (flowAttempts services network s inPkt ipv4Pkt (hopAfter network s)) := by
  have hblock : (succeeded (blockAttempts services network s)).filter (·.kind ≠ .transit) = [] :=
    List.filter_eq_nil_iff.mpr fun sub hsub => by
      simpa using kind_of_mem_blockAttempts (mem_of_mem_succeeded hsub)
  have hflow : (succeeded (flowAttempts services network s inPkt ipv4Pkt
      (hopAfter network s))).filter (·.kind ≠ .transit) =
      succeeded (flowAttempts services network s inPkt ipv4Pkt (hopAfter network s)) :=
    List.filter_eq_self.mpr fun sub hsub => by
      simpa using kind_of_mem_flowAttempts (mem_of_mem_succeeded hsub)
  rw [submittedBy_packetIn services network hpay hbound, callAttempts]
  split_ifs with h
  · rw [succeeded_append_of_mem h, hblock]
  · rw [succeeded_append_of_notMem h, List.filter_append, hblock, hflow, List.nil_append]

/-- The transit intents a call submits. -/
theorem filter_transit_submittedBy (hpay : inPkt.parsed.payload = .ipv4 ipv4Pkt)
    (hbound : s.RouterBound inPkt.parsed.destinationMAC) :
    (submittedBy services s (.packetIn network inPkt)).filter (·.kind = .transit) =
      succeeded (blockAttempts services network s) := by
  have hblock : (succeeded (blockAttempts services network s)).filter (·.kind = .transit) =
      succeeded (blockAttempts services network s) :=
    List.filter_eq_self.mpr fun sub hsub => by
      simpa using kind_of_mem_blockAttempts (mem_of_mem_succeeded hsub)
  have hflow : (succeeded (flowAttempts services network s inPkt ipv4Pkt
      (hopAfter network s))).filter (·.kind = .transit) = [] :=
    List.filter_eq_nil_iff.mpr fun sub hsub => by
      simpa using kind_of_mem_flowAttempts (mem_of_mem_succeeded hsub)
  rw [submittedBy_packetIn services network hpay hbound, callAttempts]
  by_cases h : none ∈ blockAttempts services network s
  · rw [succeeded_append_of_mem h, hblock]
  · rw [succeeded_append_of_notMem h, List.filter_append, hblock, hflow, List.append_nil]

end Call

end VRouter
