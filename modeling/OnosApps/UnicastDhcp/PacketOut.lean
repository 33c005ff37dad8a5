import OnosApps.UnicastDhcp.Connected

/-!
# Unicast DHCP: packets that are sent on

A packet-in is sent on by the controller, beside the intents that take the later packets. The
intents are for the DHCP packets of a client and lead to the port of the server on the device of
the server. The controller sends every IPv4 packet, and it sends it out on the device where the
packet came in, at the port number of the server. This module says when the two agree.

## Main definitions

* `packetOut`: where a packet that is sent leaves
* `sends`: what the application sends when it handles an event
* `IsClientDhcp`: the packet is one the client-to-server intent of its sender is for
* `PacketOutAgrees`: what a call sends is what the intents take, and where they take it
* `SendsRight`: the condition on the packet and the state under which it is

## Main results

* `process_eq_sent_iff`: when a call sends its packet
* `packetOut_agrees_iff`: when the packets that are sent agree with the intents
* `discover_sent_to_neighbour`: a packet that leaves at the port of another client
-/

namespace UnicastDhcp

open Onos Runs

/-- Where `context.send()` puts a packet out: on the device it was received from. -/
def packetOut (pkt : InboundPacket) (port : PortNumber) : ConnectPoint :=
  ⟨pkt.receivedFrom.deviceId, port⟩

/-- What the application sends when it handles an event: the packet, and where it is put out. -/
def sends (services : Services) (s : State) : Event → List (InboundPacket × ConnectPoint)
  | .config _ => []
  | .packetIn pkt =>
    match process services pkt s with
    | .ok (some port) _ => [(pkt, packetOut pkt port)]
    | _ => []

/-- The packet is a DHCP packet of a client to a server. -/
def IsClientDhcp (pkt : InboundPacket) : Prop :=
  (clientSelector pkt.parsed.sourceMAC).matches pkt.parsed

instance (pkt : InboundPacket) : Decidable (IsClientDhcp pkt) :=
  inferInstanceAs (Decidable (_ = true))

/-- The call sends a packet only if an intent of its sender takes it, and sends it to the server;
and a packet that is no DHCP packet of a client is not sent, and changes nothing. -/
structure PacketOutAgrees (services : Services) (s : State) (pkt : InboundPacket) : Prop where
  intent : ∀ port s', process services pkt s = .ok (some port) s' →
    ∃ i ∈ s'.submitted, i.selector = clientSelector pkt.parsed.sourceMAC ∧
      i.selector.matches pkt.parsed
  server : ∀ port s', process services pkt s = .ok (some port) s' →
    s'.serverLocation = some (packetOut pkt port)
  quiet : ¬ IsClientDhcp pkt → ∀ port s', process services pkt s ≠ .ok (some port) s'
  unchanged : ¬ IsClientDhcp pkt →
    (next services s (.packetIn pkt)).submitted = s.submitted ∧
      (next services s (.packetIn pkt)).macToCp = s.macToCp

/-- The packet is a DHCP packet of a client. If it is sent, it comes from the device of the server,
and if the client is known, there is an intent for it. -/
structure SendsRight (services : Services) (server : ConnectPoint) (s : State)
    (pkt : InboundPacket) : Prop where
  dhcp : IsClientDhcp pkt
  known : pkt.parsed.sourceMAC ∈ s.macToCp →
    (∃ i ∈ s.submitted, i.selector = clientSelector pkt.parsed.sourceMAC) ∧
      pkt.receivedFrom.deviceId = server.deviceId
  first : pkt.parsed.sourceMAC ∉ s.macToCp → services.checks.pointToPoint pkt.receivedFrom server →
    services.checks.pointToPoint server pkt.receivedFrom →
      pkt.receivedFrom.deviceId = server.deviceId

section Sent

variable {services : Services} {s s' : State} {server : ConnectPoint} {pkt : InboundPacket}
  {port : PortNumber}

/-- The first packet of a client is recorded, so a packet that is not recorded is not the first. -/
theorem mem_of_unchanged (hip : pkt.parsed.getEtherType = Ethernet.TYPE_IPV4)
    (h : (next services s (.packetIn pkt)).macToCp = s.macToCp) :
    pkt.parsed.sourceMAC ∈ s.macToCp := by
  by_contra hnot
  rw [next, finalState_process_of_not_mem hip hnot] at h
  exact hnot (h ▸ (mem_afterFirst services s pkt).mpr (.inl rfl))

variable (hserver : s.serverLocation = some server)
  (hip : pkt.parsed.getEtherType = Ethernet.TYPE_IPV4)

include hserver hip

variable (services) in
/-- The first packet of a client is sent after its intents are built. -/
theorem process_of_first (hmem : pkt.parsed.sourceMAC ∉ s.macToCp) :
    (services.checks.pointToPoint pkt.receivedFrom server ∧
        services.checks.pointToPoint server pkt.receivedFrom →
      ∃ s', process services pkt s = .ok (some server.port) s') ∧
    (¬ (services.checks.pointToPoint pkt.receivedFrom server ∧
        services.checks.pointToPoint server pkt.receivedFrom) →
      ∃ err s', process services pkt s = .error err s') := by
  unfold process
  by_cases hc : services.checks.pointToPoint pkt.receivedFrom server
  · by_cases hs : services.checks.pointToPoint server pkt.receivedFrom
    · simp [hip, hmem, hserver, hc, hs, buildAndSubmit, connection]
    · simp [hip, hmem, hserver, hc, hs, buildAndSubmit, connection]
  · simp [hip, hmem, hserver, hc, buildAndSubmit, connection]

variable (services) in
/-- **When a call sends its packet**: if the client is known, or both its intents are built. -/
theorem process_eq_sent_iff :
    process services pkt s = .ok (some port) s' ↔
      port = server.port ∧ s' = next services s (.packetIn pkt) ∧
        (pkt.parsed.sourceMAC ∈ s.macToCp ∨
          services.checks.pointToPoint pkt.receivedFrom server ∧
            services.checks.pointToPoint server pkt.receivedFrom) := by
  -- a call that returns the port of the server is sent, whatever state it leaves
  have hsent : ∀ t, process services pkt s = .ok (some server.port) t →
      (process services pkt s = .ok (some port) s' ↔
        port = server.port ∧ s' = next services s (.packetIn pkt)) := by
    intro t ht
    rw [next, finalState, ht]
    constructor
    · rintro ⟨⟩
      exact ⟨rfl, rfl⟩
    · rintro ⟨rfl, rfl⟩
      rfl
  by_cases hmem : pkt.parsed.sourceMAC ∈ s.macToCp
  · have hknown : process services pkt s = .ok (some server.port) s := by
      simp [process, hip, hmem, hserver]
    simp only [hsent s hknown, hmem, true_or, and_true]
  obtain ⟨hreturns, hthrows⟩ := process_of_first services hserver hip hmem
  by_cases hbuilt : services.checks.pointToPoint pkt.receivedFrom server ∧
      services.checks.pointToPoint server pkt.receivedFrom
  · obtain ⟨t, ht⟩ := hreturns hbuilt
    simp only [hsent t ht, hbuilt, or_true, and_true, and_self]
  · obtain ⟨err, t, ht⟩ := hthrows hbuilt
    simp [ht, hmem, hbuilt]

theorem serverLocation_next : (next services s (.packetIn pkt)).serverLocation = some server := by
  obtain ⟨pkt', heq, -, -, hnext⟩ | ⟨hknown, -⟩ := next_cases services s (.packetIn pkt)
  · rw [hnext, afterFirst, hserver]
  · rw [next, finalState_process_of_mem (hknown pkt rfl hip), hserver]

/-- A packet that is sent leaves at the server exactly when it comes from the device of the
server. -/
theorem packetOut_port_iff :
    (next services s (.packetIn pkt)).serverLocation = some (packetOut pkt server.port) ↔
      pkt.receivedFrom.deviceId = server.deviceId := by
  rw [serverLocation_next hserver hip, Option.some.injEq]
  constructor
  · intro h
    rw [h, packetOut]
  · intro h
    rw [packetOut, h]

theorem PacketOutAgrees.sendsRight (h : PacketOutAgrees services s pkt) :
    SendsRight services server s pkt where
  dhcp := by
    by_contra hnot
    -- a packet that changes nothing is of a known client, and is sent
    have hmem := mem_of_unchanged hip (h.unchanged hnot).2
    exact h.quiet hnot server.port _
      ((process_eq_sent_iff services hserver hip).mpr ⟨rfl, rfl, .inl hmem⟩)
  known hmem := by
    have hsent := (process_eq_sent_iff services hserver hip).mpr ⟨rfl, rfl, .inl hmem⟩
    obtain ⟨i, hi, hsel, -⟩ := h.intent _ _ hsent
    rw [next, finalState_process_of_mem hmem] at hi
    exact ⟨⟨i, hi, hsel⟩, (packetOut_port_iff hserver hip).mp (h.server _ _ hsent)⟩
  first _ hc hs :=
    (packetOut_port_iff hserver hip).mp
      (h.server _ _ ((process_eq_sent_iff services hserver hip).mpr ⟨rfl, rfl, .inr ⟨hc, hs⟩⟩))

theorem SendsRight.packetOutAgrees (h : SendsRight services server s pkt) :
    PacketOutAgrees services s pkt where
  intent port s' hsent := by
    obtain ⟨-, rfl, hwhy⟩ := (process_eq_sent_iff services hserver hip).mp hsent
    by_cases hmem : pkt.parsed.sourceMAC ∈ s.macToCp
    · obtain ⟨i, hi, hsel⟩ := (h.known hmem).1
      rw [next, finalState_process_of_mem hmem]
      exact ⟨i, hi, hsel, hsel ▸ h.dhcp⟩
    · -- the intent that the call has just built
      obtain ⟨hc, hs⟩ := hwhy.resolve_left hmem
      refine ⟨toServer services pkt.parsed.sourceMAC pkt.receivedFrom server, ?_, rfl, h.dhcp⟩
      rw [next, finalState_process_of_not_mem hip hmem, afterFirst]
      simp [built, hserver, hc, hs]
  server port s' hsent := by
    obtain ⟨rfl, rfl, hwhy⟩ := (process_eq_sent_iff services hserver hip).mp hsent
    rw [packetOut_port_iff hserver hip]
    by_cases hmem : pkt.parsed.sourceMAC ∈ s.macToCp
    · exact (h.known hmem).2
    · obtain ⟨hc, hs⟩ := hwhy.resolve_left hmem
      exact h.first hmem hc hs
  quiet hnot := absurd h.dhcp hnot
  unchanged hnot := absurd h.dhcp hnot

end Sent

section Sends

variable {services : Services} {s s' : State} {pkt : InboundPacket} {port : PortNumber}

/-- A packet that is sent is an IPv4 packet, and there is a server to send it to. -/
theorem of_process_eq_sent (h : process services pkt s = .ok (some port) s') :
    pkt.parsed.getEtherType = Ethernet.TYPE_IPV4 ∧ s.serverLocation.isSome := by
  unfold process at h
  split_ifs at h with hip
  · cases h
  refine ⟨not_not.mp hip, ?_⟩
  -- without a server both branches throw
  cases hserver : s.serverLocation with
  | some server => rfl
  | none => by_cases hmem : pkt.parsed.sourceMAC ∈ s.macToCp <;> simp [hserver, hmem] at h

variable (services s) in
/-- An IPv4 packet that is handled is of a client that is recorded from then on. -/
theorem sourceMAC_mem_next (hip : pkt.parsed.getEtherType = Ethernet.TYPE_IPV4) :
    pkt.parsed.sourceMAC ∈ (next services s (.packetIn pkt)).macToCp := by
  by_cases hmem : pkt.parsed.sourceMAC ∈ s.macToCp
  · rwa [next, finalState_process_of_mem hmem]
  · rw [next, finalState_process_of_not_mem hip hmem, mem_afterFirst]
    exact .inl rfl

/-- **What the application sends**: an IPv4 packet of a client that is recorded from then on, to
the port number of the server on the device where it came in. -/
theorem of_mem_sends {e : Event} {x : InboundPacket × ConnectPoint} (h : x ∈ sends services s e) :
    x.1.parsed.getEtherType = Ethernet.TYPE_IPV4 ∧
      x.1.parsed.sourceMAC ∈ (next services s e).macToCp ∧
      ∃ server, s.serverLocation = some server ∧ x.2 = packetOut x.1 server.port := by
  cases e with
  | config e => cases h
  | packetIn pkt =>
    rw [sends] at h
    split at h
    next port s' hsent =>
      obtain rfl := List.mem_singleton.mp h
      obtain ⟨hip, hknown⟩ := of_process_eq_sent hsent
      obtain ⟨server, hserver⟩ := Option.isSome_iff_exists.mp hknown
      obtain ⟨rfl, -⟩ := (process_eq_sent_iff services hserver hip).mp hsent
      exact ⟨hip, sourceMAC_mem_next services s hip, server, hserver, rfl⟩
    · cases h

end Sends

/-- **When the packets that are sent agree with the intents.** With the server configured, an IPv4
packet-in is sent on as the intents would take it, and does nothing if they would not take it,
exactly when it is a DHCP packet of a client, it comes from the device of the server if it is sent,
and there is an intent for its sender if the sender is known. -/
theorem packetOut_agrees_iff (services : Services) {s : State} {server : ConnectPoint}
    (hserver : s.serverLocation = some server) {pkt : InboundPacket}
    (hip : pkt.parsed.getEtherType = Ethernet.TYPE_IPV4) :
    PacketOutAgrees services s pkt ↔ SendsRight services server s pkt :=
  ⟨fun h => h.sendsRight hserver hip, fun h => h.packetOutAgrees hserver hip⟩

/-- A DHCP packet of the client `m`, received from `cp`. -/
def discover (m : MacAddress) (cp : ConnectPoint) : InboundPacket :=
  ⟨cp, ⟨m, ⟨0xffffffffffff⟩,
    .ipv4 ⟨⟨0⟩, ⟨0xffffffff⟩, .udp DHCP_CLIENT_PORT DHCP_SERVER_PORT⟩⟩⟩

/-- The deployment, with its server configured. -/
def configured : State :=
  next deployed State.init (.config ⟨.CONFIG_ADDED, true, some ⟨some "of:0000000000000003/2"⟩⟩)

/-- The client at the switch of the server. -/
theorem packetOut_agrees_same_switch :
    PacketOutAgrees deployed configured (discover ⟨0xeae978fbfd04⟩ ⟨⟨3⟩, ⟨1⟩⟩) :=
  (packetOut_agrees_iff deployed (show configured.serverLocation = some ⟨⟨3⟩, ⟨2⟩⟩ by decide)
    rfl).mpr ⟨by decide, fun hmem => absurd hmem (by decide), fun _ _ _ => rfl⟩

/-- **A packet that leaves at the port of another client**: the server is at port 2 of switch 3,
and the packet of the first client on switch 1 is sent out at port 2 of switch 1. -/
theorem discover_sent_to_neighbour :
    ¬ PacketOutAgrees deployed configured (discover ⟨0xeae978fbfd01⟩ ⟨⟨1⟩, ⟨1⟩⟩) := by
  intro h
  have hserver : configured.serverLocation = some ⟨⟨3⟩, ⟨2⟩⟩ := by decide
  have hsent := (process_eq_sent_iff deployed hserver
    (show (discover ⟨0xeae978fbfd01⟩ ⟨⟨1⟩, ⟨1⟩⟩).parsed.getEtherType = Ethernet.TYPE_IPV4 from
      rfl)).mpr ⟨rfl, rfl, .inr ⟨by decide, by decide⟩⟩
  exact absurd (h.server _ _ hsent) (by decide)

end UnicastDhcp
