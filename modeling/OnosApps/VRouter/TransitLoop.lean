import Mathlib.Data.Finset.Lattice.Lemmas
import OnosApps.Runs.Run
import OnosApps.VRouter.PacketCall

/-!
# The virtual router: the transit loop on any routes

The transit loop stops at the first route that does not lead to a port, with the flag set. Up to
there it submits an intent for each route; its ingress points are the ports of the peers, and
the egress points of the routes before, without its own egress point. The builder can refuse
the first intent only, since from then on there are two points to choose from.

## Main definitions

* `Submission.carried`, `Network.carries`: the prefix, egress point and next-hop address of a
  transit intent, and of a route
* `State.peerPoints`: the ports of the configured peers
* `BuildsTransit`: the transit block of a call submits an intent for each of these routes
* `PassesTransit`: a call gets through the transit block
* `TransitRecorded`: the flag is set only if every route that leads to a port has an intent
* `Input`: the events of a run in one network

## Main results

* `transits_of_buildsTransit`: the transit intents of a call
* `transitRecorded_iff_completes`: when a transit build that fails is not recorded as done
-/

namespace VRouter

open Onos Runs

/-! ## Transit intents and routes -/

/-- The prefix, the egress point and the new destination address of an intent. -/
def Submission.carried (sub : Submission) : Option IpPrefix × ConnectPoint × Option MacAddress :=
  (sub.intent.selector.ipDst, sub.intent.egressPoint, sub.intent.treatment.ethDst)

/-- What the transit intents of a state carry, in the order of their submission. -/
def transits (s : State) : List (Option IpPrefix × ConnectPoint × Option MacAddress) :=
  (s.submitted.filter (·.kind = .transit)).map Submission.carried

/-- What a transit intent for the route carries: its prefix, the port of its current next hop and
the address of its current next hop. -/
def Network.carries (network : Network) (info : RouteInfo) :
    Option (Option IpPrefix × ConnectPoint × Option MacAddress) :=
  (network.leadsTo info).map fun a => (some info.ipPrefix, a.1, some a.2)

theorem mem_transits {s : State} {r : Option IpPrefix × ConnectPoint × Option MacAddress} :
    r ∈ transits s ↔ ∃ sub ∈ s.submitted, sub.kind = .transit ∧ sub.carried = r := by
  simp [transits, and_assoc]

/-! ## The attempts of the loop -/

section Loop

variable (services : Services) (network : Network)

/-- The first route leaves an ingress point, if it leads to a port. -/
def Admits (points : Finset ConnectPoint) (infos : List RouteInfo) : Prop :=
  ∀ info ∈ infos.head?, ∀ a ∈ network.leadsTo info, (points.erase a.1).Nonempty

/-- The intents of the transit loop if the builder refuses none. -/
def transitsFrom (quaggaMac : MacAddress) :
    Finset ConnectPoint → List RouteInfo → List Submission
  | _, [] => []
  | points, info :: infos =>
    (network.leadsTo info).elim [] fun a =>
      transitSubmission services (points.erase a.1) info quaggaMac a ::
        transitsFrom quaggaMac (insert a.1 points) infos

variable {services network} {points : Finset ConnectPoint} {infos : List RouteInfo}
  {quaggaMac : MacAddress}

/-- After one route there are two points, and one is left for the next route. -/
theorem Admits.tail {info : RouteInfo} {a : ConnectPoint × MacAddress}
    (h : Admits network points (info :: infos)) (hlead : network.leadsTo info = some a) :
    Admits network (insert a.1 points) infos := by
  intro info' _ b _
  obtain ⟨p, hp⟩ := h info rfl a hlead
  obtain ⟨hpa, hp⟩ := Finset.mem_erase.mp hp
  by_cases hb : a.1 = b.1
  · exact ⟨p, Finset.mem_erase.mpr ⟨hb ▸ hpa, Finset.mem_insert_of_mem hp⟩⟩
  · exact ⟨a.1, Finset.mem_erase.mpr ⟨hb, Finset.mem_insert_self _ _⟩⟩

/-- The builder accepts a transit intent exactly when an ingress point is left. -/
theorem transitAttempt_isSome_iff {quaggaMac : Option MacAddress} {info : RouteInfo} :
    (transitAttempt services network quaggaMac points info).isSome ↔
      quaggaMac.isSome ∧ ∃ a, network.leadsTo info = some a ∧ (points.erase a.1).Nonempty := by
  unfold transitAttempt
  cases network.leadsTo info with
  | none => simp
  | some a =>
    cases quaggaMac with
    | none => simp
    | some mac =>
      rcases (points.erase a.1).eq_empty_or_nonempty with hempty | hnonempty
      · simp [hempty, services.checks.multiPoint_empty]
      · simp [hnonempty, services.checks.multiPoint_of_nonempty _ a.1 hnonempty
          (Finset.notMem_erase _ _)]

/-- No attempt of the loop fails exactly when there is none, or the address of the speaker is
there, the first route leaves an ingress point, and every route leads to a port. -/
theorem none_notMem_transitAttempts_iff {quaggaMac : Option MacAddress} :
    none ∉ transitAttempts services network quaggaMac points infos ↔
      infos = [] ∨ quaggaMac.isSome ∧ Admits network points infos ∧
        ∀ info ∈ infos, (network.leadsTo info).isSome := by
  induction infos generalizing points with
  | nil => simp [transitAttempts]
  | cons info infos ih =>
    have hhead : none ≠ transitAttempt services network quaggaMac points info ↔
        (transitAttempt services network quaggaMac points info).isSome := by
      rw [ne_comm, Option.isSome_iff_ne_none]
    rw [transitAttempts, List.mem_cons, not_or, ← ne_eq, hhead, transitAttempt_isSome_iff, ih,
      or_iff_right (List.cons_ne_nil _ _)]
    constructor
    · rintro ⟨⟨hmac, a, hlead, hleft⟩, hrest⟩
      refine ⟨hmac, ?_, ?_⟩
      · intro info' hinfo' a' hlead'
        obtain rfl : info = info' := Option.some.inj hinfo'
        obtain rfl : a = a' := Option.some.inj (hlead.symm.trans hlead')
        exact hleft
      · rw [List.forall_mem_cons, hlead]
        rcases hrest with rfl | ⟨-, -, hall⟩
        · simp
        · exact ⟨rfl, hall⟩
    · rintro ⟨hmac, hadmits, hall⟩
      obtain ⟨hfirst, hall⟩ := List.forall_mem_cons.mp hall
      obtain ⟨a, hlead⟩ := Option.isSome_iff_exists.mp hfirst
      refine ⟨⟨hmac, a, hlead, hadmits info rfl a hlead⟩, .inr ⟨hmac, ?_, hall⟩⟩
      rw [pointsAfter, hlead]
      exact hadmits.tail hlead

theorem succeeded_transitAttempts (h : Admits network points infos) :
    succeeded (transitAttempts services network (some quaggaMac) points infos) =
      transitsFrom services network quaggaMac points infos := by
  induction infos generalizing points with
  | nil => rfl
  | cons info infos ih =>
    rw [transitAttempts, transitsFrom, transitAttempt, pointsAfter]
    cases hlead : network.leadsTo info with
    | none => rfl
    | some a =>
      have haccept := services.checks.multiPoint_of_nonempty _ a.1 (h info rfl a hlead)
        (Finset.notMem_erase _ _)
      rw [Option.bind_some, Option.bind_some, if_pos haccept, succeeded_some_cons,
        Option.elim_some, Option.elim_some, ih (h.tail hlead)]

/-- If the first route leaves no ingress point, the builder throws on it. -/
theorem succeeded_transitAttempts_of_not_admits (h : ¬ Admits network points infos)
    (quaggaMac : Option MacAddress) :
    succeeded (transitAttempts services network quaggaMac points infos) = [] := by
  unfold Admits at h
  push Not at h
  obtain ⟨info, hinfo, a, hlead, hempty⟩ := h
  obtain ⟨infos', rfl⟩ := List.head?_eq_some_iff.mp hinfo
  rw [transitAttempts, transitAttempt, hlead, Option.bind_some, hempty]
  cases quaggaMac with
  | none => rfl
  | some mac =>
    rw [Option.bind_some, if_neg (by simp [services.checks.multiPoint_empty])]
    rfl

theorem succeeded_transitAttempts_none :
    succeeded (transitAttempts services network none points infos) = [] := by
  cases infos with
  | nil => rfl
  | cons info infos =>
    rw [transitAttempts, transitAttempt]
    cases network.leadsTo info <;> rfl

/-- What the intents take from the routes alone, they take from the routes up to the first that
leads nowhere. -/
theorem map_transitsFrom {β : Type} {f : Submission → β}
    {g : RouteInfo → ConnectPoint × MacAddress → β}
    (hf : ∀ points info a, f (transitSubmission services points info quaggaMac a) = g info a) :
    (transitsFrom services network quaggaMac points infos).map f =
      succeeded (infos.map fun info => (network.leadsTo info).map (g info)) := by
  induction infos generalizing points with
  | nil => rfl
  | cons info infos ih =>
    rw [transitsFrom, List.map_cons]
    cases network.leadsTo info with
    | none => rfl
    | some a =>
      rw [Option.elim_some, List.map_cons, hf, ih]
      rfl

theorem map_carried_transitsFrom :
    (transitsFrom services network quaggaMac points infos).map Submission.carried =
      succeeded (infos.map network.carries) :=
  map_transitsFrom fun _ _ _ => rfl

end Loop

/-! ## The transit block of a call -/

/-- The ports of the configured peers. -/
def State.peerPoints (s : State) (network : Network) : Finset ConnectPoint :=
  ((s.peersIp.getD []).filterMap network.pointOf).toFinset

/-- The peers are configured, and each is at a port. -/
def PeersAtPorts (network : Network) (s : State) : Prop :=
  ∃ peersIp, s.peersIp = some peersIp ∧ ∀ ip ∈ peersIp, (network.pointOf ip).isSome

/-- The transit block of a call in the state `s` gets to the routes, and the builder accepts the
first intent. -/
structure BuildsTransit (network : Network) (s : State) : Prop where
  notBuilt : s.hasBuildTransitIntents = false
  peers : PeersAtPorts network s
  quaggaMac : s.quaggaMac.isSome
  admits : Admits network (s.peerPoints network) network.routes

/-- A call in the state `s` gets through the transit block: it is skipped, or the loop gets to its
end. -/
def PassesTransit (network : Network) (s : State) : Prop :=
  s.hasBuildTransitIntents = true ∨ PeersAtPorts network s ∧
    (network.routes = [] ∨ s.quaggaMac.isSome ∧
      Admits network (s.peerPoints network) network.routes ∧
      ∀ info ∈ network.routes, (network.leadsTo info).isSome)

section Block

variable {services : Services} {network : Network} {s : State} {inPkt : InboundPacket}

theorem foldlM_peerPorts {peersIp : List Ip4Address} (points : Finset ConnectPoint)
    (h : ∀ ip ∈ peersIp, (network.pointOf ip).isSome) :
    peersIp.foldlM (fun points peerIp => (network.pointOf peerIp).map (insert · points)) points =
      some (points ∪ (peersIp.filterMap network.pointOf).toFinset) := by
  induction peersIp generalizing points with
  | nil => simp
  | cons ip peersIp ih =>
    obtain ⟨p, hp⟩ := Option.isSome_iff_exists.mp (h ip (by simp))
    have hrest := ih (insert p points) fun ip' hip' => h ip' (by simp [hip'])
    rw [List.foldlM_cons, hp]
    simp [hrest, hp, Finset.insert_union, Finset.union_insert]

theorem peerPorts_of_peersAtPorts (h : PeersAtPorts network s) :
    s.peersIp.bind network.peerPorts = some (s.peerPoints network) := by
  obtain ⟨peersIp, hpeers, hall⟩ := h
  rw [hpeers, Option.bind_some, Network.peerPorts, foldlM_peerPorts ∅ hall, Finset.empty_union,
    State.peerPoints, hpeers, Option.getD_some]

theorem peerPorts_of_not_peersAtPorts (h : ¬ PeersAtPorts network s) :
    s.peersIp.bind network.peerPorts = none := by
  cases hpeers : s.peersIp with
  | none => rfl
  | some peersIp =>
    -- the loop stops at the first peer that is at no port
    have hstop : ∀ (peersIp : List Ip4Address) (points : Finset ConnectPoint),
        (∃ ip ∈ peersIp, network.pointOf ip = none) →
        peersIp.foldlM (fun points peerIp => (network.pointOf peerIp).map (insert · points))
          points = none := by
      intro peersIp
      induction peersIp with
      | nil => simp
      | cons ip peersIp ih =>
        intro points hex
        rw [List.foldlM_cons]
        cases hp : network.pointOf ip with
        | none => rfl
        | some p => exact ih _ (by simpa [hp] using hex)
    refine hstop peersIp ∅ ?_
    by_contra hall
    push Not at hall
    exact h ⟨peersIp, hpeers, fun ip hip => Option.isSome_iff_ne_none.mpr (hall ip hip)⟩

theorem flagAfter_iff (h : s.hasBuildTransitIntents = false) :
    flagAfter network s = true ↔ PeersAtPorts network s ∧ network.routes ≠ [] := by
  rw [flagAfter, h, Bool.false_or, Bool.and_eq_true, Bool.not_eq_true', List.isEmpty_eq_false_iff]
  refine and_congr_left fun _ => ?_
  by_cases hpeers : PeersAtPorts network s
  · simp [peerPorts_of_peersAtPorts hpeers, hpeers]
  · simp [peerPorts_of_not_peersAtPorts hpeers, hpeers]

variable (services) in
/-- **The transit intents of a call**: one for each route it gets to, in their order. -/
theorem transits_of_buildsTransit (h : BuildsTransit network s) :
    ∃ quaggaMac, s.quaggaMac = some quaggaMac ∧
      succeeded (blockAttempts services network s) =
        transitsFrom services network quaggaMac (s.peerPoints network) network.routes := by
  obtain ⟨quaggaMac, hmac⟩ := Option.isSome_iff_exists.mp h.quaggaMac
  refine ⟨quaggaMac, hmac, ?_⟩
  rw [blockAttempts, if_neg (by simp [h.notBuilt]), peerPorts_of_peersAtPorts h.peers,
    Option.elim_some, hmac, succeeded_transitAttempts h.admits]

/-- In all other calls there are none. -/
theorem transits_of_not_buildsTransit (h : ¬ BuildsTransit network s) :
    succeeded (blockAttempts services network s) = [] := by
  unfold blockAttempts
  split_ifs with hbuilt
  · rfl
  by_cases hpeers : PeersAtPorts network s
  · rw [peerPorts_of_peersAtPorts hpeers, Option.elim_some]
    by_cases hadmits : Admits network (s.peerPoints network) network.routes
    · -- only the address of the speaker can be missing
      cases hmac : s.quaggaMac with
      | none => exact succeeded_transitAttempts_none
      | some mac =>
        exact absurd ⟨Bool.eq_false_iff.mpr hbuilt, hpeers, by simp [hmac], hadmits⟩ h
    · exact succeeded_transitAttempts_of_not_admits hadmits s.quaggaMac
  · rw [peerPorts_of_not_peersAtPorts hpeers]
    rfl

theorem none_notMem_blockAttempts_iff (services : Services) :
    none ∉ blockAttempts services network s ↔ PassesTransit network s := by
  unfold blockAttempts PassesTransit
  by_cases hbuilt : s.hasBuildTransitIntents = true
  · simp [hbuilt]
  · rw [if_neg hbuilt, or_iff_right hbuilt]
    by_cases hpeers : PeersAtPorts network s
    · rw [peerPorts_of_peersAtPorts hpeers, Option.elim_some, none_notMem_transitAttempts_iff,
        and_iff_right hpeers]
    · rw [peerPorts_of_not_peersAtPorts hpeers]
      simp [hpeers]

theorem submittedBy_of_not_routed (h : (Event.packetIn network inPkt).Routed s = false) :
    submittedBy services s (.packetIn network inPkt) = [] := by
  rw [submittedBy, next_of_not_routed services h, List.drop_length]

end Block

/-! ## Transit builds that fail -/

/-- The flag is set only if there is a transit intent for every route that is resolved and leads
to a port. -/
def TransitRecorded (network : Network) (s : State) : Prop :=
  s.hasBuildTransitIntents = true → ∀ info ∈ network.routes, (network.leadsTo info).isSome →
    ∃ sub ∈ s.submitted, sub.kind = .transit ∧ network.carries info = some sub.carried

/-- As long as the flag is not set, there is no transit intent. -/
def NoneBuilt (s : State) : Prop :=
  s.hasBuildTransitIntents = false → transits s = []

/-- An event of a run in a network that stays the same. -/
inductive Input where
  | config (e : NetworkConfigEvent QuaggaConfig)
  | packetIn (inPkt : InboundPacket)

/-- The event in the network. -/
def Input.event (network : Network) : Input → Event
  | .config e => .config network e
  | .packetIn inPkt => .packetIn network inPkt

/-- The event does not run the transit loop, or it finds no route that leads to a port, or the
builder accepts the first intent and every route that leads to a port carries what a route
before the first that does not lead to a port carries. -/
def CompletesTransit (network : Network) (s : State) (i : Input) : Prop :=
  (i.event network).Routed s → s.hasBuildTransitIntents = false → PeersAtPorts network s →
    ∀ info ∈ network.routes, (network.leadsTo info).isSome →
      s.quaggaMac.isSome ∧ Admits network (s.peerPoints network) network.routes ∧
        ∃ info' ∈ network.routes.takeWhile (network.leadsTo · |>.isSome),
          network.carries info' = network.carries info

section Recorded

variable {services : Services} {network : Network} {s : State}

theorem transitRecorded_iff_transits :
    TransitRecorded network s ↔ (s.hasBuildTransitIntents = true → ∀ info ∈ network.routes,
      (network.leadsTo info).isSome → ∃ r ∈ transits s, network.carries info = some r) := by
  simp only [TransitRecorded, mem_transits]
  refine imp_congr_right fun _ => forall₂_congr fun info _ => imp_congr_right fun _ => ?_
  constructor
  · rintro ⟨sub, hsub, hkind, hcarries⟩
    exact ⟨sub.carried, ⟨sub, hsub, hkind, rfl⟩, hcarries⟩
  · rintro ⟨r, ⟨sub, hsub, hkind, rfl⟩, hcarries⟩
    exact ⟨sub, hsub, hkind, hcarries⟩

/-- An event that is not a router-bound packet leaves the flag and the transit intents. -/
theorem transits_next_of_not_routed (services : Services) {i : Input}
    (h : (i.event network).Routed s = false) :
    (next services s (i.event network)).hasBuildTransitIntents = s.hasBuildTransitIntents ∧
      transits (next services s (i.event network)) = transits s := by
  cases i with
  | config e =>
    rcases finalState_event services network s e with hs | ⟨config, -, hs⟩
    · rw [Input.event, next, hs]
      exact ⟨rfl, rfl⟩
    · refine ⟨hs.hasBuildTransitIntents, ?_⟩
      obtain ⟨new, hnew, hall⟩ := hs.submitted
      have hnone : new.filter (·.kind = .transit) = [] :=
        List.filter_eq_nil_iff.mpr fun sub hsub => by
          cases hall sub hsub <;> simp
      rw [transits, Input.event, next, hnew, List.filter_append, hnone, List.append_nil, transits]
  | packetIn inPkt =>
    rw [Input.event, next_of_not_routed services h]
    exact ⟨rfl, rfl⟩

/-- A router-bound packet sets the flag and adds the intents of the transit block. -/
theorem transits_next_of_routed (services : Services) {i : Input}
    (h : (i.event network).Routed s) :
    (next services s (i.event network)).hasBuildTransitIntents = flagAfter network s ∧
      transits (next services s (i.event network)) = transits s ++
        (succeeded (blockAttempts services network s)).map Submission.carried := by
  cases i with
  | config e => cases h
  | packetIn inPkt =>
    obtain ⟨ipv4Pkt, hpay, hbound⟩ := Event.exists_of_routed h
    constructor
    · rw [Input.event, next, finalState_process_eq services network hpay hbound]
      rfl
    · rw [transits, Input.event, submitted_next, List.filter_append,
        filter_transit_submittedBy services network hpay hbound, List.map_append, transits]

theorem carried_of_buildsTransit (services : Services) (h : BuildsTransit network s) :
    (succeeded (blockAttempts services network s)).map Submission.carried =
      succeeded (network.routes.map network.carries) := by
  obtain ⟨quaggaMac, -, htransits⟩ := transits_of_buildsTransit services h
  rw [htransits, map_carried_transitsFrom]

theorem NoneBuilt.next (hs : NoneBuilt s) (i : Input) :
    NoneBuilt (next services s (i.event network)) := by
  intro hflag
  cases hrouted : (i.event network).Routed s with
  | false =>
    obtain ⟨hflag', htransits⟩ := transits_next_of_not_routed services hrouted
    rw [htransits, hs (hflag' ▸ hflag)]
  | true =>
    obtain ⟨hflag', htransits⟩ := transits_next_of_routed services hrouted
    rw [hflag'] at hflag
    have hbuilt : s.hasBuildTransitIntents = false := (Bool.or_eq_false_iff.mp hflag).1
    rw [htransits, hs hbuilt, List.nil_append]
    by_cases hbuilds : BuildsTransit network s
    · -- the loop was run and has not set the flag, so there was no route
      have hempty : network.routes = [] := by
        by_contra hne
        rw [(flagAfter_iff hbuilt).mpr ⟨hbuilds.peers, hne⟩] at hflag
        cases hflag
      rw [carried_of_buildsTransit services hbuilds, hempty]
      rfl
    · rw [transits_of_not_buildsTransit hbuilds]
      rfl

/-- A route that leads to a port gets its intent exactly when the builder accepts the first one
and a route before the first that leads nowhere carries the same. -/
theorem exists_carried_iff (hbuilt : s.hasBuildTransitIntents = false)
    (hpeers : PeersAtPorts network s) {info : RouteInfo} (hlead : (network.leadsTo info).isSome) :
    (∃ r ∈ (succeeded (blockAttempts services network s)).map Submission.carried,
        network.carries info = some r) ↔
      s.quaggaMac.isSome ∧ Admits network (s.peerPoints network) network.routes ∧
        ∃ info' ∈ network.routes.takeWhile (network.leadsTo · |>.isSome),
          network.carries info' = network.carries info := by
  have hsome : ∀ info, (network.carries info).isSome = (network.leadsTo info).isSome := by
    intro info
    rw [Network.carries, Option.isSome_map]
  by_cases hbuilds : BuildsTransit network s
  · rw [carried_of_buildsTransit services hbuilds]
    simp only [hbuilds.quaggaMac, hbuilds.admits, true_and, mem_succeeded_map, hsome]
    constructor
    · rintro ⟨r, ⟨info', hinfo', hr⟩, hinfo⟩
      exact ⟨info', hinfo', hr.trans hinfo.symm⟩
    · rintro ⟨info', hinfo', hsame⟩
      obtain ⟨r, hr⟩ := Option.isSome_iff_exists.mp ((hsome info).trans hlead)
      exact ⟨r, ⟨info', hinfo', hsame.trans hr⟩, hr⟩
  · rw [transits_of_not_buildsTransit hbuilds]
    refine iff_of_false (by simp) ?_
    rintro ⟨hmac, hadmits, -⟩
    exact hbuilds ⟨hbuilt, hpeers, hmac, hadmits⟩

/-- One step: if the flag was right before, it is right afterwards exactly when the event
completes the transit build it begins. -/
theorem transitRecorded_next_iff (i : Input) (hnone : NoneBuilt s)
    (hs : TransitRecorded network s) :
    TransitRecorded network (next services s (i.event network)) ↔ CompletesTransit network s i := by
  rw [transitRecorded_iff_transits] at hs ⊢
  unfold CompletesTransit
  cases hrouted : (i.event network).Routed s with
  | false =>
    obtain ⟨hflag, htransits⟩ := transits_next_of_not_routed services hrouted
    rw [hflag, htransits]
    exact iff_of_true hs (by simp)
  | true =>
    obtain ⟨hflag, htransits⟩ := transits_next_of_routed services hrouted
    rw [hflag, htransits]
    cases hbuilt : s.hasBuildTransitIntents with
    | true =>
      -- the transit block is skipped
      have hskip : blockAttempts services network s = [] := by rw [blockAttempts, if_pos hbuilt]
      refine iff_of_true (fun _ => ?_) (by simp)
      rw [hskip]
      simpa using hs hbuilt
    | false =>
      rw [hnone hbuilt, List.nil_append, flagAfter_iff hbuilt]
      constructor
      · intro h _ _ hpeers info hinfo hlead
        exact (exists_carried_iff hbuilt hpeers hlead).mp
          (h ⟨hpeers, List.ne_nil_of_mem hinfo⟩ info hinfo hlead)
      · rintro h ⟨hpeers, -⟩ info hinfo hlead
        exact (exists_carried_iff hbuilt hpeers hlead).mpr (h rfl rfl hpeers info hinfo hlead)

end Recorded

/-- **When a failed transit build is not recorded as done.** In every state of a run in a network
that stays the same, the flag is set only if every route that is resolved and leads to a port
has a transit intent, exactly when every call of the run that gets to the transit loop
completes it for these routes. -/
theorem transitRecorded_iff_completes (services : Services) (network : Network)
    (is : List Input) :
    (∀ is', is' <+: is → TransitRecorded network
        (run (fun s i => next services s (Input.event network i)) State.init is')) ↔
      Along (fun s i => next services s (Input.event network i)) (CompletesTransit network)
        State.init is :=
  forall_prefix_iff_along (fun _ i hs => NoneBuilt.next hs i)
    (fun _ i hnone hs => transitRecorded_next_iff i hnone hs) (fun _ => rfl)
    (fun h => by cases h) is

/-- The deployment, in which the first route is not resolved yet. -/
def unresolvedNetwork : Network where
  getMatchingInterface := deployedInterface
  routeTables := [⟨IpPrefix.valueOf ⟨0xc0a83600⟩ 24, none⟩ :: deployedRoutes]
  hosts := []

/-- **A failed transit build that is recorded as done**: the first route is not resolved, the
call throws, and the flag is set without a transit intent for the other routes. -/
theorem unresolved_route_recorded :
    ¬ TransitRecorded unresolvedNetwork
      (run (fun s i => next deployed s (Input.event unresolvedNetwork i)) State.init
        [.config deployedEvent, .packetIn deployedPacket]) := by
  intro h
  have hsub := h (by decide) ⟨IpPrefix.valueOf ⟨0xc0a83300⟩ 24, some ⟨⟨0xac1e0102⟩, ⟨0xe1⟩⟩⟩
    (by decide) (by decide)
  exact absurd hsub (by decide)

end VRouter
