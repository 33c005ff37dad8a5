import OnosApps.Reactive.Fabric
import OnosApps.UnicastDhcp.Clients
import OnosApps.UnicastDhcp.PacketOut

/-!
# Unicast DHCP at work

The application is a controller that issues two intents for each client, and sends the packets it
is shown on itself. This module puts it to work in a network that forwards what the installed
intents take and shows the rest to the application, with intents that are installed late, lost and
installed again. Whatever the network forwards, it forwards between a client, at the point recorded
for it, and the server; what the application sends leaves on the device where it came in, at the
port number of the server. Once the intents of a client are installed, its exchange with the server
is forwarded by them, whatever else happens.

## Main definitions

* `dhcp`: the application as a controller
* `NamesServer`: the configurations all name one location of the server
* `ConnectsOnly`: the intents connect recorded clients with the server

## Main results

* `ConnectsOnly.next`: an event keeps to the recorded clients and the server
* `forwarded_or_sent`: where the packets go that are forwarded, and those that are sent
* `client_served`: the first packet of a client opens its exchange for good
* `client_shown_once`: with prompt installation, one DHCP packet of a client is shown
-/

namespace UnicastDhcp

open Onos Runs Reactive

/-- An event keeps the submitted intents. -/
theorem submitted_subset_next (services : Services) (s : State) (e : Event) :
    s.submitted ⊆ (next services s e).submitted := by
  obtain ⟨pkt, -, -, -, hnext⟩ | ⟨-, location, hnext⟩ := next_cases services s e
  · rw [hnext]
    exact List.subset_append_left _ _
  · rw [hnext]
    exact List.Subset.refl _

/-- The packet that the event shows to the application. -/
def Event.packet? : Event → Option (Unit × InboundPacket)
  | .config _ => none
  | .packetIn pkt => some ((), pkt)

/-- The application as a controller that issues intents, and sends packets with where they are put
out. -/
def dhcp (services : Services) : Controller State Event Unit InboundPacket PointToPointIntent
    (InboundPacket × ConnectPoint) where
  next := next services
  packetIn _ := .packetIn
  frame? := Event.packet?
  sends := sends services
  issued := State.submitted
  takes i q := (Intent.pointToPoint i).Accepts q.receivedFrom q.parsed
  eq_packetIn e x h := by
    cases e with
    | config e => cases h
    | packetIn pkt => rw [← Option.some.inj h]
  issued_next := submitted_subset_next services

/-- The application, its installed intents, and the packets that were forwarded and sent. -/
abbrev DhcpFabric :=
  Fabric State InboundPacket PointToPointIntent (InboundPacket × ConnectPoint)

/-- An event of the application, the installation or the loss of an intent, or a packet. -/
abbrev DhcpEvent := FabricEvent Event Unit InboundPacket PointToPointIntent

theorem takes_iff {services : Services} {i : PointToPointIntent} {q : InboundPacket} :
    (dhcp services).takes i q = true ↔
      q.receivedFrom = i.filteredIngressPoint ∧ i.selector.matches q.parsed = true := by
  simp [dhcp, Intent.Accepts, Intent.ingressPoints, Intent.selector]

/-! ## Clients and the server -/

/-- A configuration that is read, and whose location can be parsed, names `server`. -/
def NamesServer (services : Services) (server : ConnectPoint) : Event → Prop
  | .config e => ∀ config ∈ e.read, ∀ cp ∈ services.deviceConnectPoint config.name, cp = server
  | .packetIn _ => True

/-- The server is at `server` if it is known, and every intent connects a client, at the point
recorded for it, with `server`. -/
structure ConnectsOnly (services : Services) (server : ConnectPoint) (s : State) : Prop where
  location : ∀ cp ∈ s.serverLocation, cp = server
  intents : ∀ i ∈ s.submitted, ∃ m, ∃ point ∈ s.macToCp.lookup m,
    i = toServer services m point server ∨ i = toClient services m point server

section Connects

variable {services : Services} {server : ConnectPoint} {s : State}

theorem connectsOnly_init : ConnectsOnly services server State.init :=
  ⟨by simp [State.init], by simp [State.init]⟩

variable (services s) in
/-- An event leaves the server where it is, or moves it to the location that the event names. -/
theorem serverLocation_next_cases (e : Event) :
    (next services s e).serverLocation = s.serverLocation ∨
      ∃ cp, (next services s e).serverLocation = some cp ∧
        ∀ server, NamesServer services server e → cp = server := by
  cases e with
  | config e =>
    rw [next, DhcpConfigListener.event]
    cases hread : e.read with
    | none => exact .inl rfl
    | some config =>
      cases hloc : services.deviceConnectPoint config.name with
      | none => simp [finalState, hloc]
      | some cp =>
        refine .inr ⟨cp, by simp [finalState, hloc], fun server hnames => ?_⟩
        exact hnames config hread cp hloc
  | packetIn pkt =>
    left
    rw [next]
    by_cases hip : pkt.parsed.getEtherType = Ethernet.TYPE_IPV4
    · by_cases hmem : pkt.parsed.sourceMAC ∈ s.macToCp
      · rw [finalState_process_of_mem hmem]
      · rw [finalState_process_of_not_mem hip hmem, afterFirst]
    · rw [finalState_process_of_not_ipv4 hip]

/-- One event: the intents connect recorded clients with the server. -/
theorem ConnectsOnly.next (hs : ConnectsOnly services server s) {e : Event}
    (he : NamesServer services server e) :
    ConnectsOnly services server (UnicastDhcp.next services s e) := by
  constructor
  · rcases serverLocation_next_cases services s e with h | ⟨cp, h, hnames⟩ <;> rw [h]
    · exact hs.location
    · rintro _ ⟨⟩
      exact hnames server he
  obtain ⟨pkt, rfl, hip, hmem, hnext⟩ | ⟨-, location, hnext⟩ := next_cases services s e
  · rw [hnext, afterFirst]
    intro i hi
    rcases List.mem_append.mp hi with hi | hi
    · -- the other clients keep their points
      obtain ⟨m, point, hpoint, hor⟩ := hs.intents i hi
      refine ⟨m, point, ?_, hor⟩
      have hne : m ≠ pkt.parsed.sourceMAC := by
        rintro rfl
        rw [Finmap.lookup_eq_none.mpr hmem] at hpoint
        cases hpoint
      rwa [ConcurrentMap.lookup_putIfAbsent, if_neg hne]
    · obtain ⟨server', hserver', hor⟩ := mem_built hi
      obtain rfl := hs.location server' hserver'
      refine ⟨pkt.parsed.sourceMAC, pkt.receivedFrom, ?_, hor⟩
      rw [ConcurrentMap.lookup_putIfAbsent, if_pos rfl, Finmap.lookup_eq_none.mpr hmem]
      rfl
  · rw [hnext]
    exact hs.intents

end Connects

/-! ## The exchange of a client -/

section Client

variable {services : Services} {es : List Event}

/-- In every state of a run there is one intent at most for a selector. -/
theorem eq_of_selector_eq {i i' : PointToPointIntent}
    (hi : i ∈ (run (next services) State.init es).submitted)
    (hi' : i' ∈ (run (next services) State.init es).submitted)
    (hsel : i.selector = i'.selector) : i = i' := by
  obtain ⟨m, hm⟩ := selector_of_mem_run hi
  have hmem : i ∈ intentsFor (run (next services) State.init es) m :=
    List.mem_filter.mpr ⟨hi, decide_eq_true hm⟩
  have hmem' : i' ∈ intentsFor (run (next services) State.init es) m :=
    List.mem_filter.mpr ⟨hi', decide_eq_true (hsel ▸ hm)⟩
  rw [intentsFor_run] at hmem hmem'
  cases ho : origin services State.init es m with
  | none => simp [ho] at hmem
  | some o =>
    -- both are built from the origin of one client, in the same direction
    rw [ho] at hmem hmem'
    obtain ⟨server, hserver, hor⟩ := mem_built hmem
    obtain ⟨server', hserver', hor'⟩ := mem_built hmem'
    obtain rfl : server = server' := Option.some.inj (hserver.symm.trans hserver')
    rcases hor with rfl | rfl <;> rcases hor' with rfl | rfl
    · rfl
    · exact absurd hsel (clientSelector_ne_serverSelector m m)
    · exact absurd hsel.symm (clientSelector_ne_serverSelector m m)
    · rfl

/-- The intents that take a packet are equal. -/
theorem eq_of_matches {i i' : PointToPointIntent}
    (hi : i ∈ (run (next services) State.init es).submitted)
    (hi' : i' ∈ (run (next services) State.init es).submitted) {eth : Ethernet}
    (hmatch : i.selector.matches eth = true) (hmatch' : i'.selector.matches eth = true) :
    i = i' := by
  refine eq_of_selector_eq hi hi' ?_
  obtain ⟨hudp, hsel⟩ | ⟨hudp, hsel⟩ := selector_of_matches (selector_of_mem_run hi) hmatch <;>
    obtain ⟨hudp', hsel'⟩ | ⟨hudp', hsel'⟩ :=
      selector_of_matches (selector_of_mem_run hi') hmatch'
  · rw [hsel, hsel']
  · exact absurd (hudp.symm.trans hudp') (by decide)
  · exact absurd (hudp.symm.trans hudp') (by decide)
  · rw [hsel, hsel']

/-- An installed intent that takes a packet forwards it. -/
theorem fabricNext_frame_of_installed {es : List DhcpEvent} {s : DhcpFabric}
    (hs : s = run (dhcp services).fabricNext (.start .init) es) {i : PointToPointIntent}
    (hi : i ∈ s.installed) {q : InboundPacket} (htakes : (dhcp services).takes i q = true) :
    (dhcp services).fabricNext s (.frame () q) =
      { s with forwarded := s.forwarded ++ [(q, i)] } := by
  obtain ⟨i', hi', htakes', hnext⟩ :=
    Controller.fabricNext_frame_of_takes (C := dhcp services) () hi htakes
  have hissued : s.installed ⊆ s.controller.submitted := by
    subst hs
    exact Controller.installed_run State.init es
  obtain ⟨es', -, hrun⟩ := (dhcp services).exists_run (.start .init) es
  rw [← hs] at hrun
  have hsub := hissued hi
  have hsub' := hissued hi'
  rw [hrun] at hsub hsub'
  rw [hnext, eq_of_matches hsub' hsub (takes_iff.mp htakes').2 (takes_iff.mp htakes).2]

end Client

/-! ## Packets that the application is shown -/

/-- The packet is a DHCP packet of `m` that comes in at `point`. -/
def InExchange (m : MacAddress) (point : ConnectPoint) (q : InboundPacket) : Prop :=
  q.receivedFrom = point ∧ (clientSelector m).matches q.parsed = true

instance (m : MacAddress) (point : ConnectPoint) : DecidablePred (InExchange m point) := fun _ =>
  inferInstanceAs (Decidable (_ ∧ _))

/-- Configurations name `server`, and IPv4 packets of `m` come in at `point`. -/
def StaysAt (services : Services) (server : ConnectPoint) (m : MacAddress) (point : ConnectPoint)
    (e : Event) : Prop :=
  NamesServer services server e ∧ (Event.IsFrom m e → e.point? = some point)

/-- The client `m` is new and the server is known, or there is an intent for the client. -/
def Connecting (services : Services) (server : ConnectPoint) (m : MacAddress)
    (point : ConnectPoint) (s : State) : Prop :=
  m ∉ s.macToCp ∧ s.serverLocation = some server ∨
    toServer services m point server ∈ s.submitted

section Shown

variable {services : Services} {server point : ConnectPoint} {m : MacAddress} {s : State}

/-- A DHCP packet of `m` is an IPv4 packet of `m`. -/
theorem isFrom_of_matches {q : InboundPacket} (h : (clientSelector m).matches q.parsed = true) :
    Event.IsFrom m (.packetIn q) := by
  refine ⟨?_, (of_matches_clientSelector h).1⟩
  simp only [TrafficSelector.matches, clientSelector, Option.all_some, Option.all_none,
    Bool.and_true, Bool.and_eq_true, beq_iff_eq] at h
  obtain ⟨⟨⟨⟨-, htype⟩, -⟩, -⟩, -⟩ := h
  exact htype.symm

/-- The first packet of `m` submits the intent for it. -/
theorem Connecting.packetIn (hs : Connecting services server m point s) (hne : point ≠ server)
    {pkt : InboundPacket} (hfrom : Event.IsFrom m (.packetIn pkt))
    (hpoint : pkt.receivedFrom = point) :
    toServer services m point server ∈ (next services s (.packetIn pkt)).submitted := by
  rcases hs with ⟨hnew, hserver⟩ | hsub
  · obtain ⟨-, hintents⟩ := client_next_of_first services hnew hfrom
    have hmem : toServer services m point server ∈
        intentsFor (next services s (.packetIn pkt)) m := by
      rw [hintents, hpoint, hserver]
      refine List.mem_append_right _ ?_
      simp [built, services.checks.pointToPoint_of_ne _ _ hne,
        services.checks.pointToPoint_of_ne _ _ hne.symm]
    exact List.mem_of_mem_filter hmem
  · exact submitted_subset_next services s _ hsub

/-- One event: a new client stays new or is connected. -/
theorem Connecting.next (hs : Connecting services server m point s) (hne : point ≠ server)
    {e : Event} (he : StaysAt services server m point e) :
    Connecting services server m point (UnicastDhcp.next services s e) := by
  by_cases hfrom : Event.IsFrom m e
  · cases e with
    | config e => exact hfrom.elim
    | packetIn pkt => exact .inr (hs.packetIn hne hfrom (Option.some.inj (he.2 hfrom)))
  · rcases hs with ⟨hnew, hserver⟩ | hsub
    · obtain ⟨hlookup, -⟩ := client_next_of_not services s (e := e) fun h => absurd h hfrom
      refine .inl ⟨?_, ?_⟩
      · rwa [← Finmap.lookup_eq_none, hlookup, Finmap.lookup_eq_none]
      · rcases serverLocation_next_cases services s e with h | ⟨cp, h, hnames⟩ <;> rw [h]
        · exact hserver
        · rw [hnames server he.1]
    · exact .inr (submitted_subset_next services s e hsub)

end Shown

/-- A client that is recorded stays recorded. -/
theorem mem_macToCp_next (services : Services) {s : State} {m : MacAddress} (h : m ∈ s.macToCp)
    (e : Event) : m ∈ (next services s e).macToCp := by
  rwa [← Finmap.lookup_isSome, (client_next_of_not services s fun _ => h).1, Finmap.lookup_isSome]

/-- **Where packets go.** Let all configurations name one location of the server. By every sequence
of events of the application, packets, and installations and losses of intents: a packet that the
network has forwarded is a DHCP packet of a client, which came in at the point recorded for the
client and was taken to the server, or a DHCP packet for a client, which came in at the server and
was taken to the point recorded for the client. A packet that the application has sent itself is an
IPv4 packet of a recorded client, and was put out on the device where it came in, at the port
number of the server. -/
theorem forwarded_or_sent (services : Services) (server : ConnectPoint) (es : List DhcpEvent)
    (hes : ∀ e ∈ es, (dhcp services).Admitted (NamesServer services server) e) :
    let s := run (dhcp services).fabricNext (.start .init) es
    (∀ x ∈ s.forwarded,
      x.1.parsed.udp? = some (DHCP_CLIENT_PORT, DHCP_SERVER_PORT) ∧
          s.controller.macToCp.lookup x.1.parsed.sourceMAC = some x.1.receivedFrom ∧
          x.2.filteredEgressPoint = server ∨
        x.1.parsed.udp? = some (DHCP_SERVER_PORT, DHCP_CLIENT_PORT) ∧
          x.1.receivedFrom = server ∧
          s.controller.macToCp.lookup x.1.parsed.destinationMAC =
            some x.2.filteredEgressPoint) ∧
      ∀ x ∈ s.sent, x.1.parsed.getEtherType = Ethernet.TYPE_IPV4 ∧
        x.1.parsed.sourceMAC ∈ s.controller.macToCp ∧ x.2 = packetOut x.1 server.port := by
  intro s
  have hstep : ∀ c e, ConnectsOnly services server c → NamesServer services server e →
      ConnectsOnly services server ((dhcp services).next c e) := fun _ _ hc he => hc.next he
  constructor
  · rintro ⟨q, i⟩ hx
    have hs : ConnectsOnly services server s.controller :=
      Controller.controller_invariant hstep connectsOnly_init hes
    obtain ⟨hissued, htakes⟩ := Controller.forwarded_run State.init es _ hx
    obtain ⟨hpoint, hmatch⟩ := takes_iff.mp htakes
    obtain ⟨m, point, hrec, rfl | rfl⟩ := hs.intents i hissued
    · obtain ⟨hsrc, hudp⟩ := of_matches_clientSelector hmatch
      refine .inl ⟨hudp, ?_, rfl⟩
      rw [hsrc, hpoint]
      exact hrec
    · obtain ⟨hdst, hudp⟩ := of_matches_serverSelector hmatch
      refine .inr ⟨hudp, hpoint, ?_⟩
      rw [hdst]
      exact hrec
  · refine Controller.sent_invariant (Q := fun (c : State) (x : InboundPacket × ConnectPoint) =>
      x.1.parsed.getEtherType = Ethernet.TYPE_IPV4 ∧
        x.1.parsed.sourceMAC ∈ c.macToCp ∧ x.2 = packetOut x.1 server.port) hstep
      (fun c e x hx => ⟨hx.1, mem_macToCp_next services hx.2.1 e, hx.2.2⟩)
      (fun c e hc he x hx => ?_) connectsOnly_init hes
    obtain ⟨hip, hrec, server', hserver, hout⟩ := of_mem_sends hx
    exact ⟨hip, hrec, hc.location server' hserver ▸ hout⟩

/-- The first client of the deployment: its first packet is shown to the application, its intents
are installed, and its second packet is forwarded. -/
def firstExchange : List DhcpEvent :=
  [.handle (.config ⟨.CONFIG_ADDED, true, some ⟨some "of:0000000000000003/2"⟩⟩),
    .handle (.packetIn (discover ⟨0xeae978fbfd01⟩ ⟨⟨1⟩, ⟨1⟩⟩)),
    .install (toServer deployed ⟨0xeae978fbfd01⟩ ⟨⟨1⟩, ⟨1⟩⟩ ⟨⟨3⟩, ⟨2⟩⟩),
    .install (toClient deployed ⟨0xeae978fbfd01⟩ ⟨⟨1⟩, ⟨1⟩⟩ ⟨⟨3⟩, ⟨2⟩⟩),
    .frame () (discover ⟨0xeae978fbfd01⟩ ⟨⟨1⟩, ⟨1⟩⟩)]

/-- The first exchange of the deployment: the second packet goes to the server, and the first one is
put out at port 2 of switch 1. -/
theorem forwarded_or_sent_deployed :
    let s := run (dhcp deployed).fabricNext (.start .init) firstExchange
    s.forwarded.length = 1 ∧ s.sent.map Prod.snd = [⟨⟨1⟩, ⟨2⟩⟩] ∧
      (∀ x ∈ s.forwarded,
        x.1.parsed.udp? = some (DHCP_CLIENT_PORT, DHCP_SERVER_PORT) ∧
            s.controller.macToCp.lookup x.1.parsed.sourceMAC = some x.1.receivedFrom ∧
            x.2.filteredEgressPoint = ⟨⟨3⟩, ⟨2⟩⟩ ∨
          x.1.parsed.udp? = some (DHCP_SERVER_PORT, DHCP_CLIENT_PORT) ∧
            x.1.receivedFrom = ⟨⟨3⟩, ⟨2⟩⟩ ∧
            s.controller.macToCp.lookup x.1.parsed.destinationMAC =
              some x.2.filteredEgressPoint) ∧
      ∀ x ∈ s.sent, x.1.parsed.getEtherType = Ethernet.TYPE_IPV4 ∧
        x.1.parsed.sourceMAC ∈ s.controller.macToCp ∧ x.2 = packetOut x.1 ⟨2⟩ := by
  refine ⟨by decide, by decide, forwarded_or_sent deployed ⟨⟨3⟩, ⟨2⟩⟩ firstExchange ?_⟩
  simp only [firstExchange, List.mem_cons, List.not_mem_nil, or_false, forall_eq_or_imp,
    forall_eq]
  refine ⟨?_, ?_, fun _ h => (nomatch h), fun _ h => (nomatch h), ?_⟩
  · rintro _ ⟨⟩ _ ⟨⟩ _ ⟨⟩
    rfl
  · rintro _ ⟨⟩
    trivial
  · rintro _ ⟨⟩
    trivial

/-- **The first packet of a client opens its exchange.** Let the application be shown the first
IPv4 packet of a client when the server is known, at another point than the server. In every later
state, whatever happened in between, the two intents of the client are submitted; whenever the one
is installed, the network takes the DHCP packets of the client from there to the server, and
whenever the other one is installed, it takes those for the client from the server to there. -/
theorem client_served (services : Services) (es es' : List DhcpEvent) (s s' : DhcpFabric)
    (pkt : InboundPacket) (server : ConnectPoint)
    (hs : s = run (dhcp services).fabricNext (.start .init) es)
    (hs' : s' = run (dhcp services).fabricNext s (.handle (.packetIn pkt) :: es'))
    (hip : pkt.parsed.getEtherType = Ethernet.TYPE_IPV4)
    (hnew : pkt.parsed.sourceMAC ∉ s.controller.macToCp)
    (hserver : s.controller.serverLocation = some server) (hne : pkt.receivedFrom ≠ server) :
    let m := pkt.parsed.sourceMAC
    let there := toServer services m pkt.receivedFrom server
    let back := toClient services m pkt.receivedFrom server
    (there ∈ s'.controller.submitted ∧ back ∈ s'.controller.submitted) ∧
      (there ∈ s'.installed → ∀ q, q.receivedFrom = pkt.receivedFrom →
        (clientSelector m).matches q.parsed = true →
          (dhcp services).fabricNext s' (.frame () q) =
            { s' with forwarded := s'.forwarded ++ [(q, there)] }) ∧
      (back ∈ s'.installed → ∀ q, q.receivedFrom = server →
        (serverSelector m).matches q.parsed = true →
          (dhcp services).fabricNext s' (.frame () q) =
            { s' with forwarded := s'.forwarded ++ [(q, back)] }) := by
  intro m there back
  have hrun : s' = run (dhcp services).fabricNext (.start .init)
      (es ++ .handle (.packetIn pkt) :: es') := by
    rw [run_append, ← hs, hs']
  refine ⟨?_, fun hinst q hq hmatch => ?_, fun hinst q hq hmatch => ?_⟩
  · -- the call submits both intents, and they stay submitted
    have hfirst : ∀ i ∈ built services m ⟨pkt.receivedFrom, some server⟩,
        i ∈ s'.controller.submitted := by
      intro i hi
      rw [hs', run_cons]
      refine (dhcp services).issued_run _ es' ?_
      show i ∈ (next services s.controller (.packetIn pkt)).submitted
      rw [next, finalState_process_of_not_mem hip hnew, afterFirst, hserver]
      exact List.mem_append_right _ hi
    have hbuilt : built services m ⟨pkt.receivedFrom, some server⟩ = [there, back] := by
      simp [built, services.checks.pointToPoint_of_ne _ _ hne,
        services.checks.pointToPoint_of_ne _ _ hne.symm, there, back]
    rw [hbuilt] at hfirst
    exact ⟨hfirst there (by simp), hfirst back (by simp)⟩
  · exact fabricNext_frame_of_installed hrun hinst (takes_iff.mpr ⟨hq, hmatch⟩)
  · exact fabricNext_frame_of_installed hrun hinst (takes_iff.mpr ⟨hq, hmatch⟩)

/-- The exchange of the first client of the deployment, once both its intents are installed. -/
theorem client_served_deployed :
    let s' := run (dhcp deployed).fabricNext (.start .init) firstExchange
    let there := toServer deployed ⟨0xeae978fbfd01⟩ ⟨⟨1⟩, ⟨1⟩⟩ ⟨⟨3⟩, ⟨2⟩⟩
    let back := toClient deployed ⟨0xeae978fbfd01⟩ ⟨⟨1⟩, ⟨1⟩⟩ ⟨⟨3⟩, ⟨2⟩⟩
    (∀ q, q.receivedFrom = ⟨⟨1⟩, ⟨1⟩⟩ →
        (clientSelector ⟨0xeae978fbfd01⟩).matches q.parsed = true →
          (dhcp deployed).fabricNext s' (.frame () q) =
            { s' with forwarded := s'.forwarded ++ [(q, there)] }) ∧
      ∀ q, q.receivedFrom = ⟨⟨3⟩, ⟨2⟩⟩ →
        (serverSelector ⟨0xeae978fbfd01⟩).matches q.parsed = true →
          (dhcp deployed).fabricNext s' (.frame () q) =
            { s' with forwarded := s'.forwarded ++ [(q, back)] } := by
  have h := client_served deployed
    [.handle (.config ⟨.CONFIG_ADDED, true, some ⟨some "of:0000000000000003/2"⟩⟩)] _ _
    (run (dhcp deployed).fabricNext (.start .init) firstExchange)
    (discover ⟨0xeae978fbfd01⟩ ⟨⟨1⟩, ⟨1⟩⟩) ⟨⟨3⟩, ⟨2⟩⟩ rfl rfl rfl (by decide) (by decide)
    (by decide)
  exact ⟨h.2.1 (by decide), h.2.2 (by decide)⟩

/-- The first client of the deployment sends two packets, and its intents are installed in
between. -/
def twoPackets : List DhcpEvent :=
  [.frame () (discover ⟨0xeae978fbfd01⟩ ⟨⟨1⟩, ⟨1⟩⟩),
    .install (toServer deployed ⟨0xeae978fbfd01⟩ ⟨⟨1⟩, ⟨1⟩⟩ ⟨⟨3⟩, ⟨2⟩⟩),
    .install (toClient deployed ⟨0xeae978fbfd01⟩ ⟨⟨1⟩, ⟨1⟩⟩ ⟨⟨3⟩, ⟨2⟩⟩),
    .frame () (discover ⟨0xeae978fbfd01⟩ ⟨⟨1⟩, ⟨1⟩⟩)]

/-- **A client is shown to the application once.** Let the server be known and the client be new,
let its IPv4 packets come in at one point, which is not that of the server, and let configurations
keep the server where it is. Whenever the application is shown a packet, let every submitted intent
be installed, and let none of them take the packet. By every sequence of events, the application is
shown one DHCP packet of the client at most, among those that no installed intent takes and those
that it handles otherwise. -/
theorem client_shown_once (services : Services) (server point : ConnectPoint) (m : MacAddress)
    (s : DhcpFabric) (es : List DhcpEvent) (hne : point ≠ server)
    (hnew : m ∉ s.controller.macToCp) (hserver : s.controller.serverLocation = some server)
    (hes : ∀ e ∈ es, (dhcp services).Admitted (StaysAt services server m point) e)
    (hprompt : Along (dhcp services).fabricNext (dhcp services).Prompt s es) :
    countSteps (dhcp services).fabricNext
      ((dhcp services).Opening (InExchange m point) fun _ _ _ => True) s es ≤ 1 := by
  refine Controller.countSteps_opening_le_one (P := Connecting services server m point)
    (fun _ _ hc he => hc.next hne he) ?_ (.inl ⟨hnew, hserver⟩) hes hprompt
  rintro c - q hc ⟨hpoint, hmatch⟩ -
  refine ⟨toServer services m point server, ?_, fun q' hq' => takes_iff.mpr ⟨hq'.1, hq'.2⟩⟩
  exact hc.packetIn hne (isFrom_of_matches hmatch) hpoint

/-- The first client of the deployment sends two packets. -/
theorem client_shown_once_deployed :
    countSteps (dhcp deployed).fabricNext
      ((dhcp deployed).Opening (InExchange ⟨0xeae978fbfd01⟩ ⟨⟨1⟩, ⟨1⟩⟩) fun _ _ _ => True)
      (.start configured) twoPackets = 1 ∧
    countSteps (dhcp deployed).fabricNext
      ((dhcp deployed).Opening (InExchange ⟨0xeae978fbfd01⟩ ⟨⟨1⟩, ⟨1⟩⟩) fun _ _ _ => True)
      (.start configured) twoPackets ≤ 1 := by
  refine ⟨by decide, client_shown_once deployed ⟨⟨3⟩, ⟨2⟩⟩ ⟨⟨1⟩, ⟨1⟩⟩ ⟨0xeae978fbfd01⟩
    (.start configured) twoPackets (by decide) (by decide) (by decide) ?_ (by decide)⟩
  simp only [twoPackets, List.mem_cons, List.not_mem_nil, or_false, forall_eq_or_imp, forall_eq]
  refine ⟨?_, fun _ h => (nomatch h), fun _ h => (nomatch h), ?_⟩
  · rintro _ ⟨⟩
    exact ⟨trivial, fun _ => rfl⟩
  · rintro _ ⟨⟩
    exact ⟨trivial, fun _ => rfl⟩

end UnicastDhcp
