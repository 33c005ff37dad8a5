import OnosApps.Runs.Run
import OnosApps.UnicastDhcp.Process

/-!
# Unicast DHCP: recorded clients are connected

`macToCp` is the application's record of the clients it has connected with the server. The
entry is written before the intents are built, so a client whose first packet comes in when
there is no server, or at the server's own port, is recorded and never connected.

## Main definitions

* `clientToServer m`, `serverToClient m`: the number of intents submitted for the client `m`
* `Connected`: the recorded clients are those with one intent in each direction
* `Connectable`: the packet of a new client comes in when both its intents can be built

## Main results

* `connected_next_iff`: a step from a connected state keeps it exactly when it is connectable
* `connected_iff_connectable`: the same for whole runs
* `recorded_before_configured`: a client recorded before the server is known
-/

namespace UnicastDhcp

open Onos Runs

/-- The number of intents submitted for the DHCP packets of the client `m`. -/
def clientToServer (s : State) (m : MacAddress) : ℕ :=
  s.submitted.countP (·.selector = clientSelector m)

/-- The number of intents submitted for the DHCP packets to the client `m`. -/
def serverToClient (s : State) (m : MacAddress) : ℕ :=
  s.submitted.countP (·.selector = serverSelector m)

/-- The recorded clients are those with exactly one intent in each direction. -/
def Connected (s : State) : Prop :=
  ∀ m, m ∈ s.macToCp ↔ clientToServer s m = 1 ∧ serverToClient s m = 1

/-- No intent is for a client that is not recorded. -/
def NoStray (s : State) : Prop :=
  ∀ m, m ∉ s.macToCp → clientToServer s m = 0 ∧ serverToClient s m = 0

/-- The event is not the first IPv4 packet of a client, or the server is known when it comes in
and both intents between the two can be built. -/
def Connectable (services : Services) (s : State) : Event → Prop
  | .config _ => True
  | .packetIn pkt =>
    pkt.parsed.getEtherType = Ethernet.TYPE_IPV4 → pkt.parsed.sourceMAC ∉ s.macToCp →
      ∃ server, s.serverLocation = some server ∧
        services.checks.pointToPoint pkt.receivedFrom server ∧
        services.checks.pointToPoint server pkt.receivedFrom

section Step

variable (services : Services) (s : State) (pkt : InboundPacket)

theorem connected_init : Connected State.init := by
  intro m
  simp [State.init, clientToServer, Finmap.notMem_empty]

theorem noStray_init : NoStray State.init := by
  intro m _
  simp [State.init, clientToServer, serverToClient]

/-- What is built for a client is for this client only. -/
theorem countP_built_of_ne {m m' : MacAddress} (hm : m' ≠ m) (o : Origin) :
    (built services m' o).countP (·.selector = clientSelector m) = 0 ∧
      (built services m' o).countP (·.selector = serverSelector m) = 0 := by
  constructor
  · refine List.countP_eq_zero.mpr fun i hi => ?_
    rcases selector_of_mem_built hi with h | h
    · simpa [h] using fun h' => hm (clientSelector_injective h')
    · simpa [h] using (clientSelector_ne_serverSelector m _).symm
  · refine List.countP_eq_zero.mpr fun i hi => ?_
    rcases selector_of_mem_built hi with h | h
    · simpa [h] using clientSelector_ne_serverSelector _ m
    · simpa [h] using fun h' => hm (serverSelector_injective h')

/-- A client is connected exactly when the server is known and both intents can be built. -/
theorem countP_built_self (m : MacAddress) (o : Origin) :
    ((built services m o).countP (·.selector = clientSelector m) = 1 ∧
        (built services m o).countP (·.selector = serverSelector m) = 1) ↔
      ∃ server, o.server = some server ∧ services.checks.pointToPoint o.point server ∧
        services.checks.pointToPoint server o.point := by
  have hne := clientSelector_ne_serverSelector m m
  unfold built
  cases o.server with
  | none => simp
  | some server =>
    simp only [Option.some.injEq, exists_eq_left']
    split_ifs with hc hs <;> simp_all [toServer, toClient, connection, hne.symm]

theorem clientToServer_afterFirst (m : MacAddress) :
    clientToServer (afterFirst services s pkt) m = clientToServer s m +
      (built services pkt.parsed.sourceMAC ⟨pkt.receivedFrom, s.serverLocation⟩).countP
        (·.selector = clientSelector m) :=
  List.countP_append

theorem serverToClient_afterFirst (m : MacAddress) :
    serverToClient (afterFirst services s pkt) m = serverToClient s m +
      (built services pkt.parsed.sourceMAC ⟨pkt.receivedFrom, s.serverLocation⟩).countP
        (·.selector = serverSelector m) :=
  List.countP_append

theorem mem_afterFirst {m : MacAddress} :
    m ∈ (afterFirst services s pkt).macToCp ↔ m = pkt.parsed.sourceMAC ∨ m ∈ s.macToCp :=
  ConcurrentMap.mem_putIfAbsent

variable {s}

theorem NoStray.next (hs : NoStray s) (e : Event) :
    NoStray (UnicastDhcp.next services s e) := by
  obtain ⟨pkt, rfl, -, -, hnext⟩ | ⟨-, location, hnext⟩ := next_cases services s e
  · rw [hnext]
    intro m hm
    rw [mem_afterFirst, not_or] at hm
    obtain ⟨hc, hv⟩ := countP_built_of_ne services (Ne.symm hm.1)
      ⟨pkt.receivedFrom, s.serverLocation⟩
    rw [clientToServer_afterFirst, serverToClient_afterFirst, hc, hv]
    exact hs m hm.2
  · rw [hnext]
    exact hs

/-- One step: a connected state stays connected exactly when the event is connectable. -/
theorem connected_next_iff (e : Event) (hstray : NoStray s) (hs : Connected s) :
    Connected (UnicastDhcp.next services s e) ↔ Connectable services s e := by
  obtain ⟨pkt, rfl, hip, hmem, hnext⟩ | ⟨hknown, location, hnext⟩ := next_cases services s e
  · rw [hnext, Connectable]
    -- the client has no intent yet, so its count is that of this packet's submissions
    obtain ⟨hc, hv⟩ := hstray _ hmem
    have hbuilt := countP_built_self services pkt.parsed.sourceMAC
      ⟨pkt.receivedFrom, s.serverLocation⟩
    simp only [hip, hmem, not_false_eq_true, forall_true_left, ← hbuilt]
    constructor
    · intro hs'
      have hself := (hs' pkt.parsed.sourceMAC).mp
        ((mem_afterFirst services s pkt).mpr (.inl rfl))
      rwa [clientToServer_afterFirst, serverToClient_afterFirst, hc, hv, Nat.zero_add,
        Nat.zero_add] at hself
    · intro hself m
      rw [clientToServer_afterFirst, serverToClient_afterFirst, mem_afterFirst]
      by_cases hm : pkt.parsed.sourceMAC = m
      · subst hm
        rw [hc, hv, Nat.zero_add, Nat.zero_add]
        exact iff_of_true (.inl rfl) hself
      -- the counts of the other clients stay
      · obtain ⟨hc', hv'⟩ := countP_built_of_ne services hm
          ⟨pkt.receivedFrom, s.serverLocation⟩
        rw [hc', hv']
        simpa [Ne.symm hm] using hs m
  · rw [hnext]
    refine iff_of_true hs ?_
    cases e with
    | config e => trivial
    | packetIn pkt => exact fun hip hnew => absurd (hknown pkt rfl hip) hnew

end Step

/-- **When recorded means connected.** In every state of a run of configuration events and
packet-ins, the recorded clients are those with exactly one intent in each direction, exactly
when every client's first IPv4 packet of the run comes in when the server is known and both
intents between the two points can be built. -/
theorem connected_iff_connectable (services : Services) (es : List Event) :
    (∀ es', es' <+: es → Connected (run (next services) State.init es')) ↔
      Along (next services) (Connectable services) State.init es :=
  forall_prefix_iff_along (fun _ e hs => NoStray.next services hs e)
    (fun _ e hstray hs => connected_next_iff services e hstray hs) noStray_init connected_init es

/-- The application as deployed: the server is at port 2 of switch 3. -/
def deployed : Services where
  appId := ⟨"nctu.winlab.unicastdhcp"⟩
  deviceConnectPoint name := if name = some "of:0000000000000003/2" then some ⟨⟨3⟩, ⟨2⟩⟩ else none
  checks := IntentChecks.strict

/-- **A client recorded before the server is known.** A DHCP packet of the client 1 comes in
before the configuration: the call throws, and the client is recorded without an intent. -/
theorem recorded_before_configured :
    ¬ Connected (run (next deployed) State.init
      [.packetIn ⟨⟨⟨1⟩, ⟨1⟩⟩, ⟨⟨1⟩, ⟨0xffffffffffff⟩,
        .ipv4 ⟨⟨0⟩, ⟨0xffffffff⟩, .udp DHCP_CLIENT_PORT DHCP_SERVER_PORT⟩⟩⟩]) := by
  intro h
  have hrec := (h ⟨1⟩).mp (by decide)
  exact absurd hrec (by decide)

end UnicastDhcp
