import OnosApps.UnicastDhcp.Connected

/-!
# Unicast DHCP: the intents of a client

The guard on `macToCp` lets a client through once: what is submitted for a client is decided by
its first IPv4 packet, from the point where it came in and the server known then, and nothing
that happens later changes it. The intents of different clients are therefore kept apart by
their selectors for good, and the intents of one client follow neither the client nor the
server when these move.

## Main definitions

* `Event.IsFrom m`: an IPv4 packet of the client `m`
* `firstSeen m es`: the point where `m` is first seen in a run
* `origin`: the point where a client is first seen, and the server known at that time
* `Follows s m c`: the intents for `m` connect `c` with the current server, and nothing else

## Main results

* `client_run`: what a run records and submits for a client is built from its origin
* `intentsFor_run`, `intentsFor_run_append`: the intents for a client, and that they stay
* `clients_do_not_interfere`: a frame is matched by one intent at most
* `follows_iff_origin`: when the intents of a client follow it and the server
* `client_moved`: a client that shows up at another port
-/

namespace UnicastDhcp

open Onos Runs

/-- The event is an IPv4 packet of the client `m`. -/
def Event.IsFrom (m : MacAddress) : Event → Prop
  | .config _ => False
  | .packetIn pkt =>
    pkt.parsed.getEtherType = Ethernet.TYPE_IPV4 ∧ pkt.parsed.sourceMAC = m

instance (m : MacAddress) : DecidablePred (Event.IsFrom m)
  | .config _ => .isFalse id
  | .packetIn _ => inferInstanceAs (Decidable (_ ∧ _))

/-- The point at which a packet-in comes in. -/
def Event.point? : Event → Option ConnectPoint
  | .config _ => none
  | .packetIn pkt => some pkt.receivedFrom

/-- The point where the client `m` is first seen in a run. -/
def firstSeen (m : MacAddress) (es : List Event) : Option ConnectPoint :=
  (es.find? (Event.IsFrom m)).bind Event.point?

/-- The intents for the client `m`, in the order of their submission. -/
def intentsFor (s : State) (m : MacAddress) : List PointToPointIntent :=
  s.submitted.filter fun i => i.selector = clientSelector m ∨ i.selector = serverSelector m

section Clients

variable (services : Services)

/-- The origin of the client `m` in a run from `s`. -/
def origin (s : State) : List Event → MacAddress → Option Origin
  | [], _ => none
  | .config e :: es, m => origin (next services s (.config e)) es m
  | .packetIn pkt :: es, m =>
    if Event.IsFrom m (.packetIn pkt) then some ⟨pkt.receivedFrom, s.serverLocation⟩
    else origin (next services s (.packetIn pkt)) es m

/-- The intents for `m` connect `c` with the current server in both directions, and there is no
other intent for `m`. -/
def Follows (s : State) (m : MacAddress) (c : ConnectPoint) : Prop :=
  ∃ server, s.serverLocation = some server ∧
    toServer services m c server ∈ intentsFor s m ∧
    toClient services m c server ∈ intentsFor s m ∧
    ∀ i ∈ intentsFor s m, i = toServer services m c server ∨ i = toClient services m c server

end Clients

/-! ## One event -/

section Step

variable {services : Services} {s : State} {e : Event} {m : MacAddress} {pkt : InboundPacket}

theorem filter_built_self (o : Origin) :
    (built services m o).filter (fun i => i.selector = clientSelector m ∨
      i.selector = serverSelector m) = built services m o := by
  refine List.filter_eq_self.mpr fun i hi => ?_
  exact decide_eq_true (selector_of_mem_built hi)

theorem filter_built_of_ne {m' : MacAddress} (hm : m' ≠ m) (o : Origin) :
    (built services m' o).filter (fun i => i.selector = clientSelector m ∨
      i.selector = serverSelector m) = [] := by
  refine List.filter_eq_nil_iff.mpr fun i hi => ?_
  rcases selector_of_mem_built hi with hsel | hsel
  · simp [hsel, clientSelector_injective.eq_iff, hm, clientSelector_ne_serverSelector]
  · simp [hsel, serverSelector_injective.eq_iff, hm, (clientSelector_ne_serverSelector _ _).symm]

variable (services s)

/-- An event that is no packet of `m`, or finds `m` recorded, leaves what is recorded and
submitted for `m`. -/
theorem client_next_of_not (h : Event.IsFrom m e → m ∈ s.macToCp) :
    (next services s e).macToCp.lookup m = s.macToCp.lookup m ∧
      intentsFor (next services s e) m = intentsFor s m := by
  obtain ⟨pkt, rfl, hip, hmem, hnext⟩ | ⟨-, location, hnext⟩ := next_cases services s e
  · -- the first packet of another client
    have hne : pkt.parsed.sourceMAC ≠ m := by
      rintro rfl
      exact hmem (h ⟨hip, rfl⟩)
    rw [hnext, afterFirst]
    refine ⟨?_, ?_⟩
    · rw [ConcurrentMap.lookup_putIfAbsent, if_neg hne.symm]
    · rw [intentsFor, List.filter_append, filter_built_of_ne hne, List.append_nil, intentsFor]
  · rw [hnext]
    exact ⟨rfl, rfl⟩

variable {s}

/-- The first packet of `m` records its point and submits what is built from there. -/
theorem client_next_of_first (hm : m ∉ s.macToCp) (h : Event.IsFrom m (.packetIn pkt)) :
    (next services s (.packetIn pkt)).macToCp.lookup m = some pkt.receivedFrom ∧
      intentsFor (next services s (.packetIn pkt)) m =
        intentsFor s m ++ built services m ⟨pkt.receivedFrom, s.serverLocation⟩ := by
  obtain ⟨hip, rfl⟩ := h
  rw [next, finalState_process_of_not_mem hip hm, afterFirst]
  refine ⟨?_, ?_⟩
  · rw [ConcurrentMap.lookup_putIfAbsent, if_pos rfl, Finmap.lookup_eq_none.mpr hm,
      Option.getD_none]
  · rw [intentsFor, List.filter_append, filter_built_self, intentsFor]

end Step

/-! ## Whole runs -/

section Run

variable (services : Services) {s : State} (es : List Event) {m : MacAddress}

/-- Nothing changes for a client that is recorded. -/
theorem client_run_of_mem (hm : m ∈ s.macToCp) :
    (run (next services) s es).macToCp.lookup m = s.macToCp.lookup m ∧
      intentsFor (run (next services) s es) m = intentsFor s m := by
  induction es generalizing s with
  | nil => exact ⟨rfl, rfl⟩
  | cons e es ih =>
    obtain ⟨hlookup, hintents⟩ := client_next_of_not services s (e := e) fun _ => hm
    have hm' : m ∈ (next services s e).macToCp := by
      rwa [← Finmap.lookup_isSome, hlookup, Finmap.lookup_isSome]
    obtain ⟨ihlookup, ihintents⟩ := ih hm'
    rw [run_cons]
    exact ⟨ihlookup.trans hlookup, ihintents.trans hintents⟩

/-- A client that is not recorded is recorded at its origin, and what is built from its origin
is submitted for it. -/
theorem client_run (hm : m ∉ s.macToCp) :
    (run (next services) s es).macToCp.lookup m = (origin services s es m).map Origin.point ∧
      intentsFor (run (next services) s es) m =
        intentsFor s m ++ ((origin services s es m).map (built services m)).getD [] := by
  -- up to the first packet of `m` nothing happens for it, and after it nothing any more
  induction es generalizing s with
  | nil => simp [origin, Finmap.lookup_eq_none.mpr hm]
  | cons e es ih =>
    have hstep : ¬ Event.IsFrom m e →
        (run (next services) s (e :: es)).macToCp.lookup m =
            (origin services (next services s e) es m).map Origin.point ∧
          intentsFor (run (next services) s (e :: es)) m = intentsFor s m ++
            ((origin services (next services s e) es m).map (built services m)).getD [] := by
      intro hfrom
      obtain ⟨hlookup, hintents⟩ := client_next_of_not services s (e := e)
        fun h => absurd h hfrom
      have hm' : m ∉ (next services s e).macToCp := by
        rwa [← Finmap.lookup_eq_none, hlookup, Finmap.lookup_eq_none]
      rw [run_cons, ← hintents]
      exact ih hm'
    cases e with
    | config e => exact hstep id
    | packetIn pkt =>
      by_cases hfrom : Event.IsFrom m (.packetIn pkt)
      · obtain ⟨hlookup, hintents⟩ := client_next_of_first services hm hfrom
        have hm' : m ∈ (next services s (.packetIn pkt)).macToCp := by
          rw [← Finmap.lookup_isSome, hlookup, Option.isSome_some]
        obtain ⟨hrest, hrest'⟩ := client_run_of_mem services es hm'
        rw [run_cons, origin, if_pos hfrom, hrest, hrest', hlookup, hintents]
        exact ⟨rfl, rfl⟩
      · rw [origin, if_neg hfrom]
        exact hstep hfrom

variable {services es}

theorem firstSeen_cons_of_not {e : Event} (h : ¬ Event.IsFrom m e) :
    firstSeen m (e :: es) = firstSeen m es := by
  rw [firstSeen, List.find?_cons_of_neg (by simpa using h), firstSeen]

/-- The origin of a client is where it is first seen. -/
theorem origin_point (services : Services) (s : State) :
    (origin services s es m).map Origin.point = firstSeen m es := by
  induction es generalizing s with
  | nil => rfl
  | cons e es ih =>
    cases e with
    | config e => rw [origin, ih, firstSeen_cons_of_not id]
    | packetIn pkt =>
      by_cases hfrom : Event.IsFrom m (.packetIn pkt)
      · rw [origin, if_pos hfrom, firstSeen, List.find?_cons_of_pos (by simpa using hfrom)]
        rfl
      · rw [origin, if_neg hfrom, ih, firstSeen_cons_of_not hfrom]

/-- From the start, the intents for a client are those built from its origin. -/
theorem intentsFor_run (services : Services) (es : List Event) (m : MacAddress) :
    intentsFor (run (next services) State.init es) m =
      ((origin services State.init es m).map (built services m)).getD [] :=
  (client_run services es Finmap.notMem_empty).2

theorem lookup_run (es : List Event) (m : MacAddress) :
    (run (next services) State.init es).macToCp.lookup m = firstSeen m es :=
  (client_run services es Finmap.notMem_empty).1.trans (origin_point services State.init)

/-- Once a client is seen, its intents never change. -/
theorem intentsFor_run_append (services : Services) (es es' : List Event) (m : MacAddress)
    (h : (origin services State.init es m).isSome) :
    intentsFor (run (next services) State.init (es ++ es')) m =
      intentsFor (run (next services) State.init es) m := by
  have hm : m ∈ (run (next services) State.init es).macToCp := by
    rwa [← Finmap.lookup_isSome, (client_run services es Finmap.notMem_empty).1, Option.isSome_map]
  rw [run_append, (client_run_of_mem services es' hm).2]

/-- Every intent is for some client. -/
theorem selector_of_mem_run {i : PointToPointIntent}
    (hi : i ∈ (run (next services) State.init es).submitted) :
    ∃ m, i.selector = clientSelector m ∨ i.selector = serverSelector m := by
  refine run_invariant (P := fun s : State => ∀ i ∈ s.submitted,
    ∃ m, i.selector = clientSelector m ∨ i.selector = serverSelector m) ?_ ?_ es i hi
  · intro s e hs i hi
    obtain ⟨pkt, rfl, -, -, hnext⟩ | ⟨-, location, hnext⟩ := next_cases services s e
    · rw [hnext, afterFirst] at hi
      rcases List.mem_append.mp hi with hi | hi
      · exact hs i hi
      · exact ⟨_, selector_of_mem_built hi⟩
    · rw [hnext] at hi
      exact hs i hi
  · intro i hi
    cases hi

end Run

/-! ## The frames of the clients -/

section Frames

variable {m : MacAddress} {eth : Ethernet} {services : Services}

theorem of_matches_clientSelector (h : (clientSelector m).matches eth) :
    eth.sourceMAC = m ∧ eth.udp? = some (DHCP_CLIENT_PORT, DHCP_SERVER_PORT) := by
  simp only [TrafficSelector.matches, clientSelector, Option.all_some, Option.all_none,
    Bool.and_true, Bool.and_eq_true, beq_iff_eq, Option.any_eq_true] at h
  obtain ⟨⟨⟨⟨rfl, -⟩, -⟩, u, hu, hsrc⟩, u', hu', hdst⟩ := h
  obtain rfl : u = u' := Option.some.inj (hu.symm.trans hu')
  exact ⟨rfl, by rw [hu, hsrc, hdst]⟩

theorem of_matches_serverSelector (h : (serverSelector m).matches eth) :
    eth.destinationMAC = m ∧ eth.udp? = some (DHCP_SERVER_PORT, DHCP_CLIENT_PORT) := by
  simp only [TrafficSelector.matches, serverSelector, Option.all_some, Option.all_none,
    Bool.and_true, Bool.true_and, Bool.and_eq_true, beq_iff_eq, Option.any_eq_true] at h
  obtain ⟨⟨⟨⟨rfl, -⟩, -⟩, u, hu, hsrc⟩, u', hu', hdst⟩ := h
  obtain rfl : u = u' := Option.some.inj (hu.symm.trans hu')
  exact ⟨rfl, by rw [hu, hsrc, hdst]⟩

theorem countP_built_le_one (o : Origin) :
    (built services m o).countP (·.selector = clientSelector m) ≤ 1 ∧
      (built services m o).countP (·.selector = serverSelector m) ≤ 1 := by
  have hne := clientSelector_ne_serverSelector m m
  unfold built
  cases o.server with
  | none => simp
  | some server =>
    dsimp only
    split_ifs <;> simp [toServer, toClient, connection, hne, hne.symm]

/-- The intents that match a frame are those for its sender, or those for its receiver,
depending on its ports. -/
theorem selector_of_matches {i : PointToPointIntent}
    (hi : ∃ m, i.selector = clientSelector m ∨ i.selector = serverSelector m)
    (h : i.selector.matches eth) :
    (eth.udp? = some (DHCP_CLIENT_PORT, DHCP_SERVER_PORT) ∧
        i.selector = clientSelector eth.sourceMAC) ∨
      (eth.udp? = some (DHCP_SERVER_PORT, DHCP_CLIENT_PORT) ∧
        i.selector = serverSelector eth.destinationMAC) := by
  obtain ⟨m, hm | hm⟩ := hi
  · rw [hm] at h
    obtain ⟨rfl, hudp⟩ := of_matches_clientSelector h
    exact .inl ⟨hudp, hm⟩
  · rw [hm] at h
    obtain ⟨rfl, hudp⟩ := of_matches_serverSelector h
    exact .inr ⟨hudp, hm⟩

/-- In every state of a run there is one intent at most in each direction for a client. -/
theorem counts_run_le_one (services : Services) (es : List Event) (m : MacAddress) :
    clientToServer (run (next services) State.init es) m ≤ 1 ∧
      serverToClient (run (next services) State.init es) m ≤ 1 := by
  have hrun := intentsFor_run services es m
  have hcounts : (intentsFor (run (next services) State.init es) m).countP
        (·.selector = clientSelector m) ≤ 1 ∧
      (intentsFor (run (next services) State.init es) m).countP
        (·.selector = serverSelector m) ≤ 1 := by
    rw [hrun]
    cases origin services State.init es m with
    | none => simp
    | some o => exact countP_built_le_one o
  simp only [intentsFor, List.countP_filter] at hcounts
  refine ⟨le_trans (List.countP_mono_left ?_) hcounts.1,
    le_trans (List.countP_mono_left ?_) hcounts.2⟩
  · intro i _ hi
    simp_all
  · intro i _ hi
    simp_all

/-- Only the intent for the sender, or the one for the receiver, can match a frame. -/
theorem countP_matches_run_le_one (services : Services) (es : List Event) (eth : Ethernet) :
    (run (next services) State.init es).submitted.countP (·.selector.matches eth) ≤ 1 := by
  obtain ⟨hclient, -⟩ := counts_run_le_one services es eth.sourceMAC
  obtain ⟨-, hserver⟩ := counts_run_le_one services es eth.destinationMAC
  by_cases hudp : eth.udp? = some (DHCP_CLIENT_PORT, DHCP_SERVER_PORT)
  · refine le_trans (List.countP_mono_left fun i hi h => ?_) hclient
    obtain ⟨-, hsel⟩ | ⟨hudp', -⟩ := selector_of_matches (selector_of_mem_run hi) h
    · exact decide_eq_true hsel
    · exact absurd (hudp.symm.trans hudp') (by decide)
  · refine le_trans (List.countP_mono_left fun i hi h => ?_) hserver
    obtain ⟨hudp', -⟩ | ⟨-, hsel⟩ := selector_of_matches (selector_of_mem_run hi) h
    · exact absurd hudp' hudp
    · exact decide_eq_true hsel

/-- An intent to a client leads to the point where the client is first seen. -/
theorem firstSeen_of_mem_run {es : List Event} {i : PointToPointIntent}
    (hi : i ∈ (run (next services) State.init es).submitted) (hm : i.selector = serverSelector m) :
    firstSeen m es = some i.filteredEgressPoint := by
  have hmem : i ∈ intentsFor (run (next services) State.init es) m :=
    List.mem_filter.mpr ⟨hi, decide_eq_true (.inr hm)⟩
  rw [intentsFor_run] at hmem
  cases ho : origin services State.init es m with
  | none => simp [ho] at hmem
  | some o =>
    rw [ho] at hmem
    obtain ⟨server, -, rfl | rfl⟩ := mem_built hmem
    · exact absurd hm (clientSelector_ne_serverSelector _ _)
    · rw [← origin_point services State.init, ho]
      rfl

end Frames

/-- **Clients do not interfere.** In every state of a run of configuration events and packet-ins,
a frame is matched by one submitted intent at most; and if that is an intent to a client, it
leads to the point recorded for the receiver of the frame, where that client was first seen. -/
theorem clients_do_not_interfere (services : Services) (es : List Event) (eth : Ethernet) :
    (run (next services) State.init es).submitted.countP (·.selector.matches eth) ≤ 1 ∧
      ∀ i ∈ (run (next services) State.init es).submitted, i.selector.matches eth →
        (∃ m, i.selector = serverSelector m) →
        (run (next services) State.init es).macToCp.lookup eth.destinationMAC =
            some i.filteredEgressPoint ∧
          firstSeen eth.destinationMAC es = some i.filteredEgressPoint := by
  refine ⟨countP_matches_run_le_one services es eth, ?_⟩
  rintro i hi hmatch ⟨m, hm⟩
  rw [hm] at hmatch
  obtain ⟨rfl, -⟩ := of_matches_serverSelector hmatch
  rw [lookup_run, and_self]
  exact firstSeen_of_mem_run hi hm

/-! ## Clients and servers that move -/

theorem of_toClient_mem_built {services : Services} {m : MacAddress} {c server : ConnectPoint}
    {o : Origin} (h : toClient services m c server ∈ built services m o) :
    o = ⟨c, some server⟩ ∧ services.checks.pointToPoint c server ∧
      services.checks.pointToPoint server c := by
  have hne := clientSelector_ne_serverSelector m m
  obtain ⟨point, server'⟩ := o
  unfold built at h
  cases server' with
  | none => cases h
  | some server' =>
    dsimp only at h
    split_ifs at h with hc hs
    · rcases List.mem_pair.mp h with h | h
      · exact absurd (congrArg PointToPointIntent.selector h).symm hne
      · obtain rfl : server = server' := congrArg PointToPointIntent.filteredIngressPoint h
        obtain rfl : c = point := congrArg PointToPointIntent.filteredEgressPoint h
        exact ⟨rfl, hc, hs⟩
    · exact absurd (congrArg PointToPointIntent.selector (List.mem_singleton.mp h)).symm hne
    · cases h

/-- **When the intents of a client follow it.** At any time the intents for a client are those
built from its origin, and from then on they never change. So right after a packet-in from `m` at
`c` they connect `c` with the current server exactly when `m` was first seen at `c`, with that
server, and the builder took both intents. -/
theorem follows_iff_origin (services : Services) (es : List Event) (pkt : InboundPacket) :
    (∀ es' m, intentsFor (run (next services) State.init es') m =
        ((origin services State.init es' m).map (built services m)).getD []) ∧
      (∀ es' es'' m, (origin services State.init es' m).isSome →
        intentsFor (run (next services) State.init (es' ++ es'')) m =
          intentsFor (run (next services) State.init es') m) ∧
      (Follows services (run (next services) State.init (es ++ [.packetIn pkt]))
          pkt.parsed.sourceMAC pkt.receivedFrom ↔
        ∃ server,
          (run (next services) State.init (es ++ [.packetIn pkt])).serverLocation = some server ∧
          origin services State.init (es ++ [.packetIn pkt]) pkt.parsed.sourceMAC =
            some ⟨pkt.receivedFrom, some server⟩ ∧
          services.checks.pointToPoint pkt.receivedFrom server ∧
          services.checks.pointToPoint server pkt.receivedFrom) := by
  refine ⟨intentsFor_run services, intentsFor_run_append services, ?_⟩
  unfold Follows
  rw [intentsFor_run services (es ++ [Event.packetIn pkt]) pkt.parsed.sourceMAC]
  refine exists_congr fun server => and_congr_right fun _ => ?_
  constructor
  · rintro ⟨-, hclient, -⟩
    cases ho : origin services State.init (es ++ [.packetIn pkt]) pkt.parsed.sourceMAC with
    | none => simp [ho] at hclient
    | some o =>
      rw [ho] at hclient
      obtain ⟨rfl, hc, hs⟩ := of_toClient_mem_built hclient
      exact ⟨rfl, hc, hs⟩
  · rintro ⟨ho, hc, hs⟩
    simp [ho, built, hc, hs]

/-- **A client that moves.** After the configuration the client 1 is first seen at port 1 of
switch 1 and then at port 1 of switch 2: its intents are still those of switch 1. -/
theorem client_moved :
    ¬ Follows deployed (run (next deployed) State.init
      [.config ⟨.CONFIG_ADDED, true, some ⟨some "of:0000000000000003/2"⟩⟩,
        .packetIn ⟨⟨⟨1⟩, ⟨1⟩⟩, ⟨⟨1⟩, ⟨0xffffffffffff⟩,
          .ipv4 ⟨⟨0⟩, ⟨0xffffffff⟩, .udp DHCP_CLIENT_PORT DHCP_SERVER_PORT⟩⟩⟩,
        .packetIn ⟨⟨⟨2⟩, ⟨1⟩⟩, ⟨⟨1⟩, ⟨0xffffffffffff⟩,
          .ipv4 ⟨⟨0⟩, ⟨0xffffffff⟩, .udp DHCP_CLIENT_PORT DHCP_SERVER_PORT⟩⟩⟩])
      ⟨1⟩ ⟨⟨2⟩, ⟨1⟩⟩ := by
  rintro ⟨server, hserver, hmem, -⟩
  obtain rfl : server = ⟨⟨3⟩, ⟨2⟩⟩ := Option.some.inj (hserver.symm.trans (by decide))
  exact absurd hmem (by decide)

end UnicastDhcp
