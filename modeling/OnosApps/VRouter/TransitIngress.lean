import Mathlib.Data.List.TakeWhile
import OnosApps.Sets.LeaveOneOut
import OnosApps.VRouter.TransitLoop

/-!
# The virtual router: the ingress points of the transit intents

All iterations of the transit loop share one set of ingress points: an iteration takes its egress
point out, builds its intent, and puts the point in again. The port of a peer is then where it
was; a port without a peer is in the set from then on, and the intents of the later routes come
in there as well. Which routes are the later ones is up to the order of the tables.

## Main definitions

* `Network.reached`: where the routes lead that the transit loop gets to
* `ExactIngress`: the transit intents of a call come in at the ports of the other peers
* `Network.Reorders`: the same routes in another order
* `Undisturbed`: the egress points of the routes are ports of peers, or all the same

## Main results

* `exactIngress_iff`: one call
* `Undisturbed.transitsOf_perm`: the transit intents do not depend on the order
* `transit_ingress_iff`: one call, and all orders
* `uplink_admitted`: a port without a peer at which transit intents come in
-/

namespace VRouter

open Onos Runs Sets

/-! ## The sets of the iterations -/

section Loop

variable {services : Services} {network : Network} {points : Finset ConnectPoint}
  {infos : List RouteInfo} {quaggaMac : MacAddress}

theorem map_egressPoint_transitsFrom :
    (transitsFrom services network quaggaMac points infos).map (·.intent.egressPoint) =
      (succeeded (infos.map network.leadsTo)).map Prod.fst := by
  rw [map_transitsFrom (g := fun _ a => a.1) fun _ _ _ => rfl, ← succeeded_map, List.map_map]
  rfl

theorem map_ingressPoints_transitsFrom :
    (transitsFrom services network quaggaMac points infos).map (·.intent.ingressPoints) =
      others points ((succeeded (infos.map network.leadsTo)).map Prod.fst) := by
  induction infos generalizing points with
  | nil => rfl
  | cons info infos ih =>
    rw [transitsFrom, List.map_cons]
    cases network.leadsTo info with
    | none => rfl
    | some a => exact congrArg (_ :: ·) ih

/-- The routes that the loop gets to, with where they lead. -/
def legs (network : Network) (infos : List RouteInfo) :
    List (RouteInfo × ConnectPoint × MacAddress) :=
  succeeded (infos.map fun info => (network.leadsTo info).map (Prod.mk info))

theorem map_legs :
    (legs network infos).map (·.2.1) = (succeeded (infos.map network.leadsTo)).map Prod.fst := by
  rw [legs, ← succeeded_map, ← succeeded_map, List.map_map, List.map_map]
  refine congrArg succeeded (List.map_congr_left fun info _ => ?_)
  simp [Option.map_map, Function.comp_def]

theorem mem_legs_iff (hlead : ∀ info ∈ infos, (network.leadsTo info).isSome)
    {x : RouteInfo × ConnectPoint × MacAddress} :
    x ∈ legs network infos ↔ x.1 ∈ infos ∧ network.leadsTo x.1 = some x.2 := by
  have hall : infos.takeWhile (fun info => ((network.leadsTo info).map (Prod.mk info)).isSome) =
      infos :=
    List.takeWhile_eq_self_iff.mpr fun info hinfo => by simpa using hlead info hinfo
  rw [legs, mem_succeeded_map, hall]
  constructor
  · rintro ⟨info, hinfo, hx⟩
    obtain ⟨a, ha, rfl⟩ := Option.map_eq_some_iff.mp hx
    exact ⟨hinfo, ha⟩
  · rintro ⟨hinfo, hx⟩
    exact ⟨x.1, hinfo, by rw [hx]; rfl⟩

/-- Every iteration uses the shared set as it finds it, without its own egress point. -/
theorem transitsFrom_eq_zipWith :
    transitsFrom services network quaggaMac points infos =
      List.zipWith (fun points x => transitSubmission services points x.1 quaggaMac x.2)
        (others points ((legs network infos).map (·.2.1))) (legs network infos) := by
  induction infos generalizing points with
  | nil => rfl
  | cons info infos ih =>
    rw [transitsFrom, legs, List.map_cons]
    cases network.leadsTo info with
    | none => rfl
    | some a => exact congrArg (_ :: ·) ih

/-- If no egress point disturbs a later route, every intent is built from the first set. -/
theorem transitsFrom_eq_map
    (h : ((legs network infos).map (·.2.1)).Pairwise fun p q => p ∈ points ∨ p = q) :
    transitsFrom services network quaggaMac points infos =
      (legs network infos).map fun x =>
        transitSubmission services (points.erase x.2.1) x.1 quaggaMac x.2 := by
  rw [transitsFrom_eq_zipWith, (others_eq_map_erase_iff points _).mpr h, List.map_map,
    List.zipWith_map_left, List.zipWith_self]
  rfl

end Loop

/-! ## One call -/

/-- The egress points of the routes that the transit loop gets to. -/
def Network.reached (network : Network) : List ConnectPoint :=
  (succeeded (network.routes.map network.leadsTo)).map Prod.fst

/-- The transit intents of the call. -/
def transitsOf (services : Services) (network : Network) (s : State) (inPkt : InboundPacket) :
    List Submission :=
  (submittedBy services s (.packetIn network inPkt)).filter (·.kind = .transit)

/-- The transit intents of the call come in at the ports of the peers other than their egress
point. -/
def ExactIngress (services : Services) (network : Network) (s : State) (inPkt : InboundPacket) :
    Prop :=
  ∀ sub ∈ submittedBy services s (.packetIn network inPkt), sub.kind = .transit →
    sub.intent.ingressPoints = (s.peerPoints network).erase sub.intent.egressPoint

/-- The same interfaces and the same routes, in any tables and in any order. -/
structure Network.Reorders (network network' : Network) : Prop where
  interfaces : network'.getMatchingInterface = network.getMatchingInterface
  routes : network'.routes.Perm network.routes

section Ingress

variable {services : Services} {network network' : Network} {s : State} {inPkt : InboundPacket}

theorem exactIngress_iff_transitsOf :
    ExactIngress services network s inPkt ↔ ∀ sub ∈ transitsOf services network s inPkt,
      sub.intent.ingressPoints = (s.peerPoints network).erase sub.intent.egressPoint := by
  simp [ExactIngress, transitsOf, List.mem_filter]

/-- Only a call for a routed packet that gets to the routes submits transit intents. -/
theorem transitsOf_eq_nil
    (h : ¬ ((Event.packetIn network inPkt).Routed s ∧ BuildsTransit network s)) :
    transitsOf services network s inPkt = [] := by
  cases hrouted : (Event.packetIn network inPkt).Routed s with
  | false => rw [transitsOf, submittedBy_of_not_routed hrouted, List.filter_nil]
  | true =>
    obtain ⟨ipv4Pkt, hpay, hbound⟩ := Event.exists_of_routed hrouted
    rw [transitsOf, filter_transit_submittedBy services network hpay hbound]
    exact transits_of_not_buildsTransit fun hbuilds => h ⟨hrouted, hbuilds⟩

variable (services) in
/-- Such a call submits those of the loop. -/
theorem exists_transitsOf_eq (hrouted : (Event.packetIn network inPkt).Routed s)
    (hbuilds : BuildsTransit network s) :
    ∃ quaggaMac, s.quaggaMac = some quaggaMac ∧ transitsOf services network s inPkt =
      transitsFrom services network quaggaMac (s.peerPoints network) network.routes := by
  obtain ⟨ipv4Pkt, hpay, hbound⟩ := Event.exists_of_routed hrouted
  obtain ⟨quaggaMac, hmac, htransits⟩ := transits_of_buildsTransit services hbuilds
  refine ⟨quaggaMac, hmac, ?_⟩
  rw [transitsOf, filter_transit_submittedBy services network hpay hbound, htransits]

variable (services network s inPkt) in
/-- One call: the egress point of every route the loop gets to has to be the port of a peer, or
the egress point of all routes after it. -/
theorem exactIngress_iff :
    ExactIngress services network s inPkt ↔
      ((Event.packetIn network inPkt).Routed s → BuildsTransit network s →
        network.reached.Pairwise fun p q => p ∈ s.peerPoints network ∨ p = q) := by
  rw [exactIngress_iff_transitsOf]
  by_cases hcall : (Event.packetIn network inPkt).Routed s ∧ BuildsTransit network s
  · obtain ⟨quaggaMac, -, htransits⟩ := exists_transitsOf_eq services hcall.1 hcall.2
    simp only [hcall, forall_true_left]
    rw [htransits, ← List.map_inj_left, map_ingressPoints_transitsFrom,
      ← others_eq_map_erase_iff, Network.reached, ← map_egressPoint_transitsFrom, List.map_map]
    rfl
  · rw [transitsOf_eq_nil hcall]
    exact ⟨fun _ hrouted hbuilds => absurd ⟨hrouted, hbuilds⟩ hcall, fun _ => by simp⟩

/-! ## Every order of the routes -/

theorem Network.Reorders.refl (network : Network) : network.Reorders network := ⟨rfl, .rfl⟩

namespace Network.Reorders

variable (h : network.Reorders network')

include h

theorem pointOf_eq : network'.pointOf = network.pointOf := by
  funext ip
  rw [pointOf, h.interfaces, pointOf]

theorem leadsTo_eq : network'.leadsTo = network.leadsTo := by
  funext info
  rw [leadsTo, h.interfaces, leadsTo]

theorem peerPoints_eq : s.peerPoints network' = s.peerPoints network := by
  rw [State.peerPoints, h.pointOf_eq, State.peerPoints]

theorem peersAtPorts_iff : PeersAtPorts network' s ↔ PeersAtPorts network s := by
  rw [PeersAtPorts, h.pointOf_eq, PeersAtPorts]

end Network.Reorders

/-- The egress points of the routes are ports of peers, or all the same. -/
def Undisturbed (network : Network) (s : State) : Prop :=
  ∀ p ∈ network.reached, ∀ q ∈ network.reached, p ∈ s.peerPoints network ∨ p = q

theorem undisturbed_iff :
    Undisturbed network s ↔ (∀ p ∈ network.reached, p ∈ s.peerPoints network) ∨
      ∀ p ∈ network.reached, ∀ q ∈ network.reached, p = q := by
  constructor
  · intro h
    by_cases hpeers : ∀ p ∈ network.reached, p ∈ s.peerPoints network
    · exact .inl hpeers
    · -- one egress point is no peer's port, and then it is that of every route
      push Not at hpeers
      obtain ⟨r, hr, hpeer⟩ := hpeers
      have hsame : ∀ q ∈ network.reached, r = q := fun q hq => (h r hr q hq).resolve_left hpeer
      exact .inr fun p hp q hq => (hsame p hp).symm.trans (hsame q hq)
  · rintro (h | h) p hp q hq
    · exact .inl (h p hp)
    · exact .inr (h p hp q hq)

theorem Undisturbed.pairwise (h : Undisturbed network s) :
    network.reached.Pairwise fun p q => p ∈ s.peerPoints network ∨ p = q :=
  List.pairwise_of_forall_mem_list h

/-! From here on every route leads to a port, so that the loop gets to all of them. -/

variable (hlead : ∀ info ∈ network.routes, (network.leadsTo info).isSome)

include hlead

theorem Network.mem_reached_iff {p : ConnectPoint} :
    p ∈ network.reached ↔ ∃ info ∈ network.routes, ∃ a ∈ network.leadsTo info, a.1 = p := by
  rw [Network.reached, ← map_legs, List.mem_map]
  constructor
  · rintro ⟨x, hx, rfl⟩
    obtain ⟨hinfo, ha⟩ := (mem_legs_iff hlead).mp hx
    exact ⟨x.1, hinfo, x.2, ha, rfl⟩
  · rintro ⟨info, hinfo, a, ha, rfl⟩
    exact ⟨(info, a), (mem_legs_iff hlead).mpr ⟨hinfo, ha⟩, rfl⟩

/-- Whether the builder accepts the first intent does not depend on which route is the first. -/
theorem Undisturbed.admits_iff (h : Undisturbed network s) :
    Admits network (s.peerPoints network) network.routes ↔
      ∀ p ∈ network.reached, ((s.peerPoints network).erase p).Nonempty := by
  constructor
  · intro hadmits p hp
    obtain ⟨_, hmem, -⟩ := (Network.mem_reached_iff hlead).mp hp
    obtain ⟨info, infos, hroutes⟩ := List.exists_cons_of_ne_nil (List.ne_nil_of_mem hmem)
    have hinfo : info ∈ network.routes := by simp [hroutes]
    obtain ⟨a, ha⟩ := Option.isSome_iff_exists.mp (hlead info hinfo)
    have hreached := (Network.mem_reached_iff hlead).mpr ⟨info, hinfo, a, ha, rfl⟩
    rcases eq_or_ne a.1 p with rfl | hne
    · exact hadmits info (by rw [hroutes]; rfl) a ha
    · -- two different egress points are both ports of peers
      exact ⟨a.1, Finset.mem_erase.mpr ⟨hne, (h a.1 hreached p hp).resolve_right hne⟩⟩
  · intro hleft info hinfo a ha
    exact hleft a.1 ((Network.mem_reached_iff hlead).mpr
      ⟨info, List.mem_of_mem_head? hinfo, a, ha, rfl⟩)

/-- Without a peer the builder refuses the first intent, whichever it is. -/
theorem transitsOf_of_peerPoints_eq_empty (hnone : s.peerPoints network = ∅) :
    transitsOf services network s inPkt = [] := by
  by_cases hcall : (Event.packetIn network inPkt).Routed s ∧ BuildsTransit network s
  · obtain ⟨quaggaMac, -, htransits⟩ := exists_transitsOf_eq services hcall.1 hcall.2
    have hadmits := hcall.2.admits
    rw [htransits]
    cases hroutes : network.routes with
    | nil => rfl
    | cons info infos =>
      obtain ⟨a, ha⟩ := Option.isSome_iff_exists.mp (hlead info (hroutes ▸ List.mem_cons_self))
      rw [hroutes] at hadmits
      obtain ⟨p, hp⟩ := hadmits info rfl a ha
      rw [hnone] at hp
      simp at hp
  · exact transitsOf_eq_nil hcall

namespace Network.Reorders

variable (h : network.Reorders network')

include h

theorem leads : ∀ info ∈ network'.routes, (network'.leadsTo info).isSome := by
  intro info hinfo
  rw [h.leadsTo_eq]
  exact hlead info (h.routes.mem_iff.mp hinfo)

theorem legs_perm : (legs network' network'.routes).Perm (legs network network.routes) := by
  have hall : ∀ infos : List RouteInfo, (∀ info ∈ infos, (network.leadsTo info).isSome) →
      (legs network infos).map some =
        infos.map fun info => (network.leadsTo info).map (Prod.mk info) := by
    intro infos hinfos
    refine map_some_succeeded fun hnone => ?_
    obtain ⟨info, hinfo, hnone⟩ := List.mem_map.mp hnone
    have hsome := hinfos info hinfo
    rw [Option.map_eq_none_iff.mp hnone] at hsome
    cases hsome
  have hlegs : legs network' = legs network := by
    funext infos
    rw [legs, h.leadsTo_eq, legs]
  rw [hlegs, ← List.map_perm_map_iff (Option.some_injective _), hall _ hlead,
    hall _ fun info hinfo => hlead info (h.routes.mem_iff.mp hinfo)]
  exact h.routes.map _

theorem reached_perm : network'.reached.Perm network.reached := by
  rw [reached, reached, ← map_legs, ← map_legs]
  exact (h.legs_perm hlead).map _

theorem undisturbed (hsame : Undisturbed network s) : Undisturbed network' s := by
  intro p hp q hq
  rw [h.peerPoints_eq]
  exact hsame p ((h.reached_perm hlead).mem_iff.mp hp) q ((h.reached_perm hlead).mem_iff.mp hq)

theorem buildsTransit_iff (hsame : Undisturbed network s) :
    BuildsTransit network' s ↔ BuildsTransit network s := by
  have hadmits : Admits network' (s.peerPoints network') network'.routes ↔
      Admits network (s.peerPoints network) network.routes := by
    rw [(h.undisturbed hlead hsame).admits_iff (h.leads hlead), hsame.admits_iff hlead,
      h.peerPoints_eq]
    exact forall_congr' fun p => by rw [(h.reached_perm hlead).mem_iff]
  constructor
  · rintro ⟨hbuilt, hpeers, hmac, ha⟩
    exact ⟨hbuilt, h.peersAtPorts_iff.mp hpeers, hmac, hadmits.mp ha⟩
  · rintro ⟨hbuilt, hpeers, hmac, ha⟩
    exact ⟨hbuilt, h.peersAtPorts_iff.mpr hpeers, hmac, hadmits.mpr ha⟩

end Network.Reorders

/-- Undisturbed, the transit intents are the same in every order. -/
theorem Undisturbed.transitsOf_perm (hsame : Undisturbed network s)
    (h : network.Reorders network') :
    (transitsOf services network' s inPkt).Perm (transitsOf services network s inPkt) := by
  have hiff := h.buildsTransit_iff hlead hsame
  by_cases hcall : (Event.packetIn network inPkt).Routed s ∧ BuildsTransit network s
  · have hrouted' : (Event.packetIn network' inPkt).Routed s := hcall.1
    obtain ⟨mac, hmac, htransits⟩ := exists_transitsOf_eq services hcall.1 hcall.2
    obtain ⟨mac', hmac', htransits'⟩ :=
      exists_transitsOf_eq services hrouted' (hiff.mpr hcall.2)
    obtain rfl : mac = mac' := Option.some.inj (hmac.symm.trans hmac')
    have hpair := hsame.pairwise
    have hpair' := (h.undisturbed hlead hsame).pairwise
    rw [Network.reached, ← map_legs] at hpair hpair'
    rw [htransits, htransits', transitsFrom_eq_map hpair, transitsFrom_eq_map hpair',
      h.peerPoints_eq]
    exact (h.legs_perm hlead).map _
  · have hcall' : ¬ ((Event.packetIn network' inPkt).Routed s ∧ BuildsTransit network' s) :=
      fun ⟨hrouted, hbuilds⟩ => hcall ⟨hrouted, hiff.mp hbuilds⟩
    rw [transitsOf_eq_nil hcall, transitsOf_eq_nil hcall']

variable (services) in
/-- A route to a port without a peer disturbs a route to another port, if it comes first. -/
theorem exists_reorders_not_exactIngress
    (hrouted : (Event.packetIn network inPkt).Routed s) (hbuilt : s.hasBuildTransitIntents = false)
    (hpeers : PeersAtPorts network s) (hmac : s.quaggaMac.isSome)
    (hsome : (s.peerPoints network).Nonempty) (hsame : ¬ Undisturbed network s) :
    ∃ network', network.Reorders network' ∧ ¬ ExactIngress services network' s inPkt := by
  unfold Undisturbed at hsame
  push Not at hsame
  obtain ⟨p, hp, q, hq, hpeer, hne⟩ := hsame
  obtain ⟨info, hinfo, a, ha, rfl⟩ := (Network.mem_reached_iff hlead).mp hp
  obtain ⟨before, after, hroutes⟩ := List.append_of_mem hinfo
  -- the route of the one port is put before all others
  let network' : Network := { network with routeTables := [info :: (before ++ after)] }
  have hfirst : network'.routes = info :: (before ++ after) := List.flatten_singleton
  have hreorders : network.Reorders network' := by
    refine ⟨rfl, ?_⟩
    rw [hfirst, hroutes]
    exact List.perm_middle.symm
  refine ⟨network', hreorders, fun hexact => ?_⟩
  have hbuilds : BuildsTransit network' s := by
    refine ⟨hbuilt, hpeers, hmac, fun info' hinfo' a' ha' => ?_⟩
    rw [hfirst, List.head?_cons] at hinfo'
    obtain rfl : info = info' := Option.some.inj hinfo'
    obtain rfl : a = a' := Option.some.inj (ha.symm.trans ha')
    rwa [hreorders.peerPoints_eq, Finset.erase_eq_of_notMem hpeer]
  have hreached : network'.reached =
      a.1 :: (succeeded ((before ++ after).map network'.leadsTo)).map Prod.fst := by
    rw [Network.reached, hfirst, List.map_cons, show network'.leadsTo info = some a from ha,
      succeeded_some_cons, List.map_cons]
  have hpair := (exactIngress_iff services network' s inPkt).mp hexact hrouted hbuilds
  have hq' : q ∈ network'.reached := (hreorders.reached_perm hlead).mem_iff.mpr hq
  rw [hreorders.peerPoints_eq, hreached, List.pairwise_cons] at hpair
  rw [hreached, List.mem_cons] at hq'
  rcases hpair.1 q (hq'.resolve_left (Ne.symm hne)) with hmem | heq
  · exact hpeer hmem
  · exact hne heq

/-- All orders: there is no peer, or the egress points are ports of peers or all the same. -/
theorem exactIngress_reorders_iff :
    (∀ network', network.Reorders network' → ExactIngress services network' s inPkt ∧
        (transitsOf services network' s inPkt).Perm (transitsOf services network s inPkt)) ↔
      ((Event.packetIn network inPkt).Routed s → s.hasBuildTransitIntents = false →
        PeersAtPorts network s → s.quaggaMac.isSome →
          s.peerPoints network = ∅ ∨ Undisturbed network s) := by
  constructor
  · intro h hrouted hbuilt hpeers hmac
    by_contra hnot
    obtain ⟨hsome, hsame⟩ := not_or.mp hnot
    obtain ⟨network', hreorders, hexact⟩ := exists_reorders_not_exactIngress services
      hlead hrouted hbuilt hpeers hmac (Finset.nonempty_iff_ne_empty.mpr hsome) hsame
    exact hexact (h network' hreorders).1
  · intro h
    by_cases hsame : Undisturbed network s
    · intro network' hreorders
      exact ⟨(exactIngress_iff services network' s inPkt).mpr fun _ _ =>
        (hreorders.undisturbed hlead hsame).pairwise, hsame.transitsOf_perm hlead hreorders⟩
    · -- nothing is submitted, whatever the order is
      have hnothing : ∀ network', network.Reorders network' →
          transitsOf services network' s inPkt = [] := by
        intro network' hreorders
        by_cases hcall : (Event.packetIn network' inPkt).Routed s ∧ BuildsTransit network' s
        · obtain ⟨hrouted, hbuilds⟩ := hcall
          have hnone := (h hrouted hbuilds.notBuilt (hreorders.peersAtPorts_iff.mp hbuilds.peers)
            hbuilds.quaggaMac).resolve_right hsame
          exact transitsOf_of_peerPoints_eq_empty (hreorders.leads hlead)
            (hreorders.peerPoints_eq.trans hnone)
        · exact transitsOf_eq_nil hcall
      intro network' hreorders
      rw [exactIngress_iff_transitsOf, hnothing network' hreorders,
        hnothing network (.refl network)]
      exact ⟨by simp, .nil⟩

end Ingress

/-- **The ingress points of the transit intents.** The transit intents of a call come in at the
ports of the peers other than their egress point exactly when the egress point of every route
the loop gets to is the port of a peer, or the egress point of all routes after it. If every
route leads to a port, they do so in every order of the routes, and are the same in every order,
exactly when there is no peer, or every route leaves at the port of a peer, or all routes leave
at one port. -/
theorem transit_ingress_iff (services : Services) (network : Network) (s : State)
    (inPkt : InboundPacket) :
    (ExactIngress services network s inPkt ↔
      ((Event.packetIn network inPkt).Routed s → BuildsTransit network s →
        network.reached.Pairwise fun p q => p ∈ s.peerPoints network ∨ p = q)) ∧
    ((∀ info ∈ network.routes, (network.leadsTo info).isSome) →
      ((∀ network', network.Reorders network' → ExactIngress services network' s inPkt ∧
          (transitsOf services network' s inPkt).Perm (transitsOf services network s inPkt)) ↔
        ((Event.packetIn network inPkt).Routed s → s.hasBuildTransitIntents = false →
          PeersAtPorts network s → s.quaggaMac.isSome →
            s.peerPoints network = ∅ ∨ (∀ p ∈ network.reached, p ∈ s.peerPoints network) ∨
              ∀ p ∈ network.reached, ∀ q ∈ network.reached, p = q))) :=
  ⟨exactIngress_iff services network s inPkt, fun hlead => by
    simp only [exactIngress_reorders_iff hlead, undisturbed_iff]⟩

/-- The deployment with a route over a fourth interface, at which there is no peer. -/
def uplinkNetwork : Network where
  getMatchingInterface ip :=
    if ip = ⟨0x0a000002⟩ then some (interfaceAt ⟨⟨1⟩, ⟨9⟩⟩ ⟨0x0a000001⟩) else deployedInterface ip
  routeTables :=
    [⟨IpPrefix.valueOf ⟨0xc0a83600⟩ 24, some ⟨⟨0x0a000002⟩, ⟨0xe9⟩⟩⟩ :: deployedRoutes]
  hosts := []

/-- **A port without a peer is admitted**: the first route leads to port 9 of switch 1, and the
transit intents of the routes after it come in there. -/
theorem uplink_admitted :
    let s := next deployed .init (.config uplinkNetwork deployedEvent)
    (∀ info ∈ uplinkNetwork.routes, (uplinkNetwork.leadsTo info).isSome) ∧
      ∃ sub ∈ submittedBy deployed s (.packetIn uplinkNetwork deployedPacket),
        sub.kind = .transit ∧ ⟨⟨1⟩, ⟨9⟩⟩ ∈ sub.intent.ingressPoints ∧
          ⟨⟨1⟩, ⟨9⟩⟩ ∉ s.peerPoints uplinkNetwork := by
  decide

end VRouter
