import OnosApps.ProxyArp.Emissions

/-!
# Proxy ARP: address resolution on a network of hosts

Hosts ask for addresses, their ARP packets come in at the controller in any order, the packets
the controller emits arrive at the hosts in any order, and a host that is asked for its own
address replies. The replies of hosts go to the controller too, which only learns from them: it
is the proxy that answers, and only requests that come in when it knows the address. So the
first request for an address serves to find it, and every later one is answered.

## Main definitions

* `Lan`: the hosts, with their addresses and edge points
* `LanState`, `LanEvent`, `lanNext`: the network, with the controller and the packets in flight
* `Effect`: what a step does, in terms of hosts
* `Truthful`: tables, packets and answers tell where hosts are, and answer what was asked
* `Sought`: an address that was asked for is known, or a packet that makes it known is on its way
* `load`: the answers to a host that are received, in flight or due

## Main results

* `Truthful.effect`: every step of the network has one of the effects
* `Truthful.next`, `Sought.next`, `Effect.load`: what the effects preserve
* `resolution_truthful`: nobody receives a wrong answer, or one it has not asked for
* `sought_known`: when nothing is in flight, every address that was asked for is known
* `requests_answered_once`: from then on every request is answered exactly once
-/

namespace ProxyArp

open Onos Runs ConcurrentMap

variable {H : Type}

/-- Hosts with an address each, on edge points of their own. -/
structure Lan (H : Type) where
  ip : H → Ip4Address
  mac : H → MacAddress
  point : H → ConnectPoint
  hostAt : ConnectPoint → Option H
  edgePoints : List ConnectPoint
  ip_injective : Function.Injective ip
  hostAt_eq_some : ∀ p h, hostAt p = some h ↔ point h = p
  edgePoints_nodup : edgePoints.Nodup
  point_mem : ∀ h, point h ∈ edgePoints

namespace Lan

variable (L : Lan H)

/-- The ARP packet by which `h` asks for `T`. -/
def requestArp (h : H) (T : Ip4Address) : ARP :=
  ⟨ARP.OP_REQUEST, L.mac h, L.ip h, ⟨0⟩, T⟩

/-- The frame by which `h` asks for `T`: a broadcast. -/
def request (h : H) (T : Ip4Address) : Ethernet :=
  ⟨L.mac h, ⟨0xffffffffffff⟩, .arp (L.requestArp h T)⟩

/-- The reply of `h` to a request for its address. -/
def reply (h : H) (arp : ARP) : Ethernet :=
  ⟨L.mac h, arp.senderHardwareAddress,
    .arp ⟨ARP.OP_REPLY, L.mac h, L.ip h, arp.senderHardwareAddress, arp.senderProtocolAddress⟩⟩

/-- The answer of the controller to the request of `h` for `T`. -/
def proxied (h : H) (T : Ip4Address) (mac : MacAddress) : Ethernet :=
  arpReply T mac (L.request h T) (L.requestArp h T)

/-- The context in which the controller handles a packet-in. -/
def context (pkt : InboundPacket) : PacketContext Ethernet where
  isHandled := false
  inPacket := pkt
  unparsed := pkt.parsed
  edgePoints := L.edgePoints
  edgePoints_nodup := L.edgePoints_nodup

/-- The table after a packet from `h`. -/
def learn (t : ArpTable) (h : H) : ArpTable :=
  t.putIfAbsent (L.ip h) (L.mac h)

theorem point_injective : Function.Injective L.point := by
  intro h h' heq
  have hat := (L.hostAt_eq_some _ h).mpr heq
  rw [(L.hostAt_eq_some _ h').mpr rfl] at hat
  exact (Option.some.inj hat).symm

end Lan

/-- The frame that arrives when the packet is emitted, and where. -/
def OutboundPacket.arrives (pkt : OutboundPacket Ethernet) : Option (ConnectPoint × Ethernet) :=
  match pkt.treatment.output with
  | some (.port p) => some (⟨pkt.sendThrough, p⟩,
      match pkt.data with
      | .wrap eth => eth
      | .unparsed bytes => bytes)
  | _ => none

/-- The network: the table of the controller, the packets on their way to the controller and to
the hosts, and what was asked and answered. -/
structure LanState (H : Type) where
  arpTable : ArpTable
  packetIns : List InboundPacket
  arriving : List (ConnectPoint × Ethernet)
  asked : List (H × Ip4Address)
  answers : List (H × Ip4Address × MacAddress)

/-- The network after `activate`. -/
def LanState.init : LanState H := ⟨∅, [], [], [], []⟩

/-- A host asks for an address, the controller handles a packet-in, or a frame arrives at an edge
point. -/
inductive LanEvent (H : Type) where
  | ask (h : H) (T : Ip4Address)
  | handle (pkt : InboundPacket)
  | arrive (x : ConnectPoint × Ethernet)

/-- What the host `h` makes of a frame: it replies to a request for its address, and takes note
of an answer. -/
def Lan.hear (L : Lan H) (s : LanState H) (h : H) (eth : Ethernet) : LanState H :=
  match eth.payload with
  | .arp arp =>
    if arp.opCode = ARP.OP_REQUEST then
      if arp.targetProtocolAddress = L.ip h then
        { s with packetIns := ⟨L.point h, L.reply h arp⟩ :: s.packetIns }
      else s
    else if arp.opCode = ARP.OP_REPLY then
      { s with
        answers := s.answers ++ [(h, arp.senderProtocolAddress, arp.senderHardwareAddress)] }
    else s
  | _ => s

/-- One step of the network. -/
def lanNext (L : Lan H) (services : Services) (s : LanState H) : LanEvent H → LanState H
  | .ask h T =>
    { s with
      packetIns := ⟨L.point h, L.request h T⟩ :: s.packetIns
      asked := s.asked ++ [(h, T)] }
  | .handle pkt =>
    if pkt ∈ s.packetIns then
      let (arpTable, emitted) := process services s.arpTable (L.context pkt)
      { s with
        arpTable := arpTable
        packetIns := s.packetIns.erase pkt
        arriving := s.arriving ++ emitted.filterMap OutboundPacket.arrives }
    else s
  | .arrive x =>
    if x ∈ s.arriving then
      let s := { s with arriving := s.arriving.erase x }
      match L.hostAt x.1 with
      | some h => L.hear s h x.2
      | none => s
    else s

/-! ## What a step does -/

/-- What a step of the network does, in terms of hosts. -/
inductive Effect (L : Lan H) (s : LanState H) : LanState H → Prop where
  | idle : Effect L s s
  | ask (h : H) (T : Ip4Address) :
    Effect L s { s with
      packetIns := ⟨L.point h, L.request h T⟩ :: s.packetIns
      asked := s.asked ++ [(h, T)] }
  /-- The controller answers a request. -/
  | answer (h : H) (T : Ip4Address) (mac : MacAddress)
      (hmem : ⟨L.point h, L.request h T⟩ ∈ s.packetIns) (hasked : (h, T) ∈ s.asked)
      (hknown : (L.learn s.arpTable h).lookup T = some mac) :
    Effect L s { s with
      arpTable := L.learn s.arpTable h
      packetIns := s.packetIns.erase ⟨L.point h, L.request h T⟩
      arriving := s.arriving ++ [(L.point h, L.proxied h T mac)] }
  /-- The controller sends a request to the other edge points. -/
  | flood (h : H) (T : Ip4Address) (hmem : ⟨L.point h, L.request h T⟩ ∈ s.packetIns)
      (hunknown : (L.learn s.arpTable h).lookup T = none) :
    Effect L s { s with
      arpTable := L.learn s.arpTable h
      packetIns := s.packetIns.erase ⟨L.point h, L.request h T⟩
      arriving := s.arriving ++
        (L.edgePoints.filter (· ≠ L.point h)).map fun p => (p, L.request h T) }
  /-- The controller learns from a reply. -/
  | learn (h : H) (arp : ARP) (hmem : ⟨L.point h, L.reply h arp⟩ ∈ s.packetIns) :
    Effect L s { s with
      arpTable := L.learn s.arpTable h
      packetIns := s.packetIns.erase ⟨L.point h, L.reply h arp⟩ }
  /-- A host replies to a request for its address. -/
  | reply (h h' : H) (hmem : (L.point h', L.request h (L.ip h')) ∈ s.arriving) :
    Effect L s { s with
      packetIns := ⟨L.point h', L.reply h' (L.requestArp h (L.ip h'))⟩ :: s.packetIns
      arriving := s.arriving.erase (L.point h', L.request h (L.ip h')) }
  /-- A request arrives where its target is not. -/
  | ignore (h : H) (T : Ip4Address) (p : ConnectPoint) (hmem : (p, L.request h T) ∈ s.arriving)
      (hnot : ∀ h', L.point h' = p → L.ip h' ≠ T) :
    Effect L s { s with arriving := s.arriving.erase (p, L.request h T) }
  /-- A host receives the answer to a request. -/
  | receive (h h' : H) (hmem : (L.point h, L.proxied h (L.ip h') (L.mac h')) ∈ s.arriving)
      (hasked : (h, L.ip h') ∈ s.asked) :
    Effect L s { s with
      arriving := s.arriving.erase (L.point h, L.proxied h (L.ip h') (L.mac h'))
      answers := s.answers ++ [(h, L.ip h', L.mac h')] }

/-- Tables, packets and answers tell where hosts are, and the answers are to what was asked. -/
structure Truthful (L : Lan H) (s : LanState H) : Prop where
  table : ∀ T mac, s.arpTable.lookup T = some mac → ∃ h, L.ip h = T ∧ L.mac h = mac
  packetIns : ∀ pkt ∈ s.packetIns, ∃ h, (∃ T, pkt = ⟨L.point h, L.request h T⟩ ∧ (h, T) ∈ s.asked) ∨
    ∃ arp, pkt = ⟨L.point h, L.reply h arp⟩
  arriving : ∀ x ∈ s.arriving, ∃ h T, x.2 = L.request h T ∨
    ∃ h', L.ip h' = T ∧ (h, T) ∈ s.asked ∧ x = (L.point h, L.proxied h T (L.mac h'))
  answers : ∀ a ∈ s.answers, (a.1, a.2.1) ∈ s.asked ∧ ∃ h, L.ip h = a.2.1 ∧ L.mac h = a.2.2

section Effect

variable {L : Lan H} {services : Services} {s s' : LanState H}

@[simp] theorem arrives_outboundTo (p : ConnectPoint) (data : ByteBuffer Ethernet) :
    (outboundTo p data).arrives = some (p,
      match data with
      | .wrap eth => eth
      | .unparsed bytes => bytes) := rfl

theorem filterMap_arrives_unparsed (eth : Ethernet) (ps : List ConnectPoint) :
    (ps.map fun p => outboundTo p (.unparsed eth)).filterMap OutboundPacket.arrives =
      ps.map fun p => (p, eth) := by
  induction ps with
  | nil => rfl
  | cons p ps ih => simp [ih]

/-- What the controller does with the request of a host. -/
theorem process_request (t : ArpTable) (h : H) (T : Ip4Address) :
    process services t (L.context ⟨L.point h, L.request h T⟩) = (L.learn t h,
      match (L.learn t h).lookup T with
      | some mac => [outboundTo (L.point h) (.wrap (L.proxied h T mac))]
      | none => (L.edgePoints.filter (· ≠ L.point h)).map fun p =>
          outboundTo p (.unparsed (L.request h T))) := by
  have harp : (L.context ⟨L.point h, L.request h T⟩).arp? = some (L.requestArp h T) := rfl
  have hop : (L.requestArp h T).opCode = ARP.OP_REQUEST := rfl
  rw [process_of_arp?_eq_some t harp, if_pos hop]
  rfl

/-- The controller only learns from the reply of a host. -/
theorem process_reply (t : ArpTable) (h : H) (arp : ARP) :
    process services t (L.context ⟨L.point h, L.reply h arp⟩) = (L.learn t h, []) := by
  have harp : (L.context ⟨L.point h, L.reply h arp⟩).arp? =
      some ⟨ARP.OP_REPLY, L.mac h, L.ip h, arp.senderHardwareAddress,
        arp.senderProtocolAddress⟩ := rfl
  rw [process_of_arp?_eq_some t harp, if_neg (show ¬ ARP.OP_REPLY = ARP.OP_REQUEST by decide)]
  rfl

/-- A request and an answer are never the same frame. -/
theorem request_ne_proxied (h h' : H) (T T' : Ip4Address) (mac : MacAddress) :
    L.request h T ≠ L.proxied h' T' mac := by
  intro heq
  have hop := congrArg (fun eth : Ethernet => eth.payload) heq
  simp only [Lan.request, Lan.proxied, arpReply, Lan.requestArp, Ethernet.Payload.arp.injEq,
    ARP.mk.injEq] at hop
  exact absurd hop.1 (by decide)

/-- A request tells its target. -/
theorem target_of_request_eq {h h' : H} {T T' : Ip4Address}
    (heq : L.request h T = L.request h' T') : T = T' := by
  have harp := congrArg (fun eth : Ethernet => eth.payload) heq
  simp only [Lan.request, Lan.requestArp, Ethernet.Payload.arp.injEq, ARP.mk.injEq] at harp
  exact harp.2.2.2.2

theorem request_ne_reply (h h' : H) (T : Ip4Address) (arp : ARP) :
    L.request h T ≠ L.reply h' arp := by
  intro heq
  have hop := congrArg (fun eth : Ethernet => eth.payload) heq
  simp only [Lan.request, Lan.reply, Lan.requestArp, Ethernet.Payload.arp.injEq,
    ARP.mk.injEq] at hop
  exact absurd hop.1 (by decide)

variable (services) in
/-- **Every step of the network has one of the effects.** -/
theorem Truthful.effect (hs : Truthful L s) (e : LanEvent H) :
    Effect L s (lanNext L services s e) := by
  cases e with
  | ask h T => exact .ask h T
  | handle pkt =>
    by_cases hmem : pkt ∈ s.packetIns
    · simp only [lanNext, if_pos hmem]
      obtain ⟨h, ⟨T, rfl, hasked⟩ | ⟨arp, rfl⟩⟩ := hs.packetIns pkt hmem
      · rw [process_request]
        cases hl : (L.learn s.arpTable h).lookup T with
        | some mac => exact .answer h T mac hmem hasked hl
        | none =>
          simp only [filterMap_arrives_unparsed]
          exact .flood h T hmem hl
      · rw [process_reply]
        simp only [List.filterMap_nil, List.append_nil]
        exact .learn h arp hmem
    · simp only [lanNext, if_neg hmem]
      exact .idle
  | arrive x =>
    by_cases hmem : x ∈ s.arriving
    · simp only [lanNext, if_pos hmem]
      obtain ⟨p, eth⟩ := x
      obtain ⟨h, T, rfl | ⟨h', rfl, hasked, heq⟩⟩ := hs.arriving _ hmem
      · cases hat : L.hostAt p with
        | none =>
          refine .ignore h T p hmem fun h' hp => ?_
          rw [(L.hostAt_eq_some p h').mpr hp] at hat
          cases hat
        | some h' =>
          have hp := (L.hostAt_eq_some p h').mp hat
          subst hp
          by_cases hT : T = L.ip h'
          · subst hT
            simp only [Lan.hear, Lan.request, Lan.requestArp, if_true]
            exact .reply h h' hmem
          · simp only [Lan.hear, Lan.request, Lan.requestArp, if_true, if_neg hT]
            refine .ignore h T _ hmem fun h'' hp hip => hT ?_
            rw [← L.point_injective hp, hip]
      · obtain ⟨rfl, rfl⟩ := Prod.mk.inj heq
        rw [(L.hostAt_eq_some _ h).mpr rfl]
        exact .receive h h' hmem hasked
    · simp only [lanNext, if_neg hmem]
      exact .idle

end Effect

/-! ## Tables, packets and answers are true -/

section Truth

variable {L : Lan H} {services : Services} {s s' : LanState H} {t : ArpTable} {h : H}
  {T : Ip4Address} {mac : MacAddress}

theorem lookup_learn (t : ArpTable) (h : H) (T : Ip4Address) :
    (L.learn t h).lookup T =
      if T = L.ip h then some ((t.lookup (L.ip h)).getD (L.mac h)) else t.lookup T :=
  lookup_putIfAbsent t _ T _

/-- What the controller knows it keeps. -/
theorem lookup_learn_of_known (hT : t.lookup T = some mac) (h : H) :
    (L.learn t h).lookup T = some mac := by
  rw [lookup_learn]
  split_ifs with heq
  · rw [← heq, hT, Option.getD_some]
  · exact hT

/-- A packet from a host makes its address known. -/
theorem isSome_lookup_learn (t : ArpTable) (h : H) : ((L.learn t h).lookup (L.ip h)).isSome := by
  rw [lookup_learn, if_pos rfl]
  rfl

theorem true_learn (ht : ∀ T mac, t.lookup T = some mac → ∃ h, L.ip h = T ∧ L.mac h = mac)
    (h : H) (hT : (L.learn t h).lookup T = some mac) : ∃ h, L.ip h = T ∧ L.mac h = mac := by
  rw [lookup_learn] at hT
  split_ifs at hT with heq
  · cases hold : t.lookup (L.ip h) with
    | none =>
      rw [hold, Option.getD_none, Option.some.injEq] at hT
      exact ⟨h, heq.symm, hT⟩
    | some mac' =>
      rw [hold, Option.getD_some, Option.some.injEq] at hT
      rw [heq, ← hT]
      exact ht _ _ hold
  · exact ht _ _ hT

/-- Sending a request to the other edge points keeps the network truthful. -/
theorem Truthful.flood (hs : Truthful L s) (h : H) (T : Ip4Address) :
    Truthful L { s with
      arpTable := L.learn s.arpTable h
      packetIns := s.packetIns.erase ⟨L.point h, L.request h T⟩
      arriving := s.arriving ++
        (L.edgePoints.filter (· ≠ L.point h)).map fun p => (p, L.request h T) } := by
  refine ⟨fun _ _ => true_learn hs.table h, fun pkt hpkt => hs.packetIns pkt
    (List.mem_of_mem_erase hpkt), fun x hx => ?_, hs.answers⟩
  rcases List.mem_append.mp hx with hx | hx
  · exact hs.arriving x hx
  · obtain ⟨p, -, rfl⟩ := List.mem_map.mp hx
    exact ⟨h, T, Or.inl rfl⟩

/-- **Every effect keeps the network truthful.** -/
theorem Truthful.next (hs : Truthful L s) (he : Effect L s s') : Truthful L s' := by
  cases he with
  | idle => exact hs
  | ask h T =>
    refine ⟨hs.table, ?_, ?_, ?_⟩
    · rintro pkt (- | ⟨-, hpkt⟩)
      · exact ⟨h, Or.inl ⟨T, rfl, by simp⟩⟩
      · obtain ⟨h', ⟨T', heq, hasked⟩ | harp⟩ := hs.packetIns pkt hpkt
        · exact ⟨h', Or.inl ⟨T', heq, List.mem_append_left _ hasked⟩⟩
        · exact ⟨h', Or.inr harp⟩
    · intro x hx
      obtain ⟨h', T', heq | ⟨h'', hip, hasked, heq⟩⟩ := hs.arriving x hx
      · exact ⟨h', T', Or.inl heq⟩
      · exact ⟨h', T', Or.inr ⟨h'', hip, List.mem_append_left _ hasked, heq⟩⟩
    · intro a ha
      obtain ⟨hasked, htrue⟩ := hs.answers a ha
      exact ⟨List.mem_append_left _ hasked, htrue⟩
  | answer h T mac hmem hasked hknown =>
    refine ⟨fun _ _ => true_learn hs.table h, fun pkt hpkt => hs.packetIns pkt
      (List.mem_of_mem_erase hpkt), fun x hx => ?_, hs.answers⟩
    rcases List.mem_append.mp hx with hx | hx
    · exact hs.arriving x hx
    · -- the answer is what the table says
      obtain ⟨h', hip, rfl⟩ := true_learn hs.table h hknown
      exact ⟨h, T, Or.inr ⟨h', hip, hasked, List.mem_singleton.mp hx⟩⟩
  | flood h T hmem hunknown => exact hs.flood h T
  | learn h arp hmem =>
    exact ⟨fun _ _ => true_learn hs.table h, fun pkt hpkt => hs.packetIns pkt
      (List.mem_of_mem_erase hpkt), hs.arriving, hs.answers⟩
  | reply h h' hmem =>
    refine ⟨hs.table, ?_, fun x hx => hs.arriving x (List.mem_of_mem_erase hx), hs.answers⟩
    rintro pkt (- | ⟨-, hpkt⟩)
    · exact ⟨h', Or.inr ⟨_, rfl⟩⟩
    · exact hs.packetIns pkt hpkt
  | ignore h T p hmem hnot =>
    exact ⟨hs.table, hs.packetIns, fun x hx => hs.arriving x (List.mem_of_mem_erase hx), hs.answers⟩
  | receive h h' hmem hasked =>
    refine ⟨hs.table, hs.packetIns, fun x hx => hs.arriving x (List.mem_of_mem_erase hx),
      fun a ha => ?_⟩
    rcases List.mem_append.mp ha with ha | ha
    · exact hs.answers a ha
    · rw [List.mem_singleton.mp ha]
      exact ⟨hasked, h', rfl, rfl⟩

theorem truthful_init : Truthful L LanState.init := by
  constructor <;> simp [LanState.init]

theorem truthful_run (es : List (LanEvent H)) :
    Truthful L (run (lanNext L services) LanState.init es) :=
  run_invariant (fun _ e hs => hs.next (hs.effect services e)) truthful_init es

end Truth

/-- **Nobody is misled.** On every network of hosts, by every sequence of requests, packet-ins and
arrivals: an entry of the table is the address of a host with its hardware address, and an
answer that a host has received gives the hardware address of the host that owns the address,
and is to a request that the receiver has made. -/
theorem resolution_truthful (L : Lan H) (services : Services) (es : List (LanEvent H)) :
    let s := run (lanNext L services) LanState.init es
    (∀ T mac, s.arpTable.lookup T = some mac → ∃ h, L.ip h = T ∧ L.mac h = mac) ∧
      ∀ h T mac, (h, T, mac) ∈ s.answers →
        (h, T) ∈ s.asked ∧ ∃ h', L.ip h' = T ∧ L.mac h' = mac := by
  intro s
  have hs : Truthful L s := truthful_run es
  exact ⟨hs.table, fun h T mac ha => hs.answers _ ha⟩

/-! ## The first request finds the address -/

section Sought

variable {L : Lan H} {services : Services} {s s' : LanState H}

/-- The address of `h'`, for which `h` has asked, is known, or is on its way to be: the request is
on its way to the controller or to `h'`, or a packet of `h'` is on its way to the controller. -/
def Comes (L : Lan H) (h h' : H) (s : LanState H) : Prop :=
  (s.arpTable.lookup (L.ip h')).isSome ∨ ⟨L.point h, L.request h (L.ip h')⟩ ∈ s.packetIns ∨
    (L.point h', L.request h (L.ip h')) ∈ s.arriving ∨
    ∃ pkt ∈ s.packetIns, pkt.receivedFrom = L.point h'

/-- Every address of a host that was asked for is known or comes to be. -/
def Sought (L : Lan H) (s : LanState H) : Prop :=
  ∀ h h', (h, L.ip h') ∈ s.asked → Comes L h h' s

theorem isSome_learn {t : ArpTable} {T : Ip4Address} (hT : (t.lookup T).isSome) (h : H) :
    ((L.learn t h).lookup T).isSome := by
  obtain ⟨mac, hmac⟩ := Option.isSome_iff_exists.mp hT
  rw [lookup_learn_of_known hmac]
  rfl

/-- **Handling a packet-in keeps an address coming**, if it deals with the request for the
address: any packet of the owner makes it known. -/
theorem Comes.handle {h h' h₁ : H} {pkt : InboundPacket} (hs : Comes L h h' s)
    (xs : List (ConnectPoint × Ethernet)) (hpkt : pkt.receivedFrom = L.point h₁)
    (hreq : pkt = ⟨L.point h, L.request h (L.ip h')⟩ →
      ((L.learn s.arpTable h₁).lookup (L.ip h')).isSome ∨
        (L.point h', L.request h (L.ip h')) ∈ xs) :
    Comes L h h' { s with
      arpTable := L.learn s.arpTable h₁
      packetIns := s.packetIns.erase pkt
      arriving := s.arriving ++ xs } := by
  rcases hs with hknown | hmem | harr | ⟨pkt', hmem, hfrom⟩
  · exact Or.inl (isSome_learn hknown h₁)
  · by_cases heq : pkt = ⟨L.point h, L.request h (L.ip h')⟩
    · rcases hreq heq with hknown | harr
      · exact Or.inl hknown
      · exact Or.inr (Or.inr (Or.inl (List.mem_append_right _ harr)))
    · exact Or.inr (Or.inl ((List.mem_erase_of_ne (Ne.symm heq)).mpr hmem))
  · exact Or.inr (Or.inr (Or.inl (List.mem_append_left _ harr)))
  · by_cases heq : pkt = pkt'
    · -- a packet of the owner is handled
      subst heq
      rw [L.point_injective (hfrom.symm.trans hpkt)]
      exact Or.inl (isSome_lookup_learn _ h₁)
    · exact Or.inr (Or.inr (Or.inr ⟨pkt', (List.mem_erase_of_ne (Ne.symm heq)).mpr hmem, hfrom⟩))

/-- An arrival of something else leaves an address coming. -/
theorem Comes.erase {h h' : H} {x : ConnectPoint × Ethernet}
    {answers : List (H × Ip4Address × MacAddress)} (hs : Comes L h h' s)
    (hx : x ≠ (L.point h', L.request h (L.ip h'))) :
    Comes L h h' { s with arriving := s.arriving.erase x, answers := answers } := by
  rcases hs with hknown | hmem | harr | hpkt
  · exact Or.inl hknown
  · exact Or.inr (Or.inl hmem)
  · exact Or.inr (Or.inr (Or.inl ((List.mem_erase_of_ne hx.symm).mpr harr)))
  · exact Or.inr (Or.inr (Or.inr hpkt))

/-- A request that is sent to the other edge points reaches the owner of the address. -/
theorem Sought.flood (hs : Sought L s) (h₁ : H) (T : Ip4Address) :
    Sought L { s with
      arpTable := L.learn s.arpTable h₁
      packetIns := s.packetIns.erase ⟨L.point h₁, L.request h₁ T⟩
      arriving := s.arriving ++
        (L.edgePoints.filter (· ≠ L.point h₁)).map fun p => (p, L.request h₁ T) } := by
  intro h h' hasked
  refine (hs h h' hasked).handle _ rfl fun heq => ?_
  obtain ⟨hpoint, hreq⟩ := InboundPacket.mk.inj heq
  obtain rfl := L.point_injective hpoint
  obtain rfl := target_of_request_eq hreq
  by_cases hself : L.point h' = L.point h₁
  · -- a host that asks for itself has just become known
    rw [L.point_injective hself]
    exact Or.inl (isSome_lookup_learn _ h₁)
  · refine Or.inr (List.mem_map.mpr ⟨L.point h', ?_, rfl⟩)
    exact List.mem_filter.mpr ⟨L.point_mem h', by simpa using hself⟩

/-- **Every effect keeps the addresses coming.** -/
theorem Sought.next (hs : Sought L s) (he : Effect L s s') : Sought L s' := by
  intro h h' hasked
  cases he with
  | idle => exact hs h h' hasked
  | ask h₁ T =>
    rcases List.mem_append.mp hasked with hasked | hasked
    · rcases hs h h' hasked with hknown | hmem | harr | ⟨pkt, hmem, hfrom⟩
      · exact Or.inl hknown
      · exact Or.inr (Or.inl (List.mem_cons_of_mem _ hmem))
      · exact Or.inr (Or.inr (Or.inl harr))
      · exact Or.inr (Or.inr (Or.inr ⟨pkt, List.mem_cons_of_mem _ hmem, hfrom⟩))
    · obtain ⟨rfl, rfl⟩ := Prod.mk.inj (List.mem_singleton.mp hasked)
      exact Or.inr (Or.inl List.mem_cons_self)
  | answer h₁ T mac hmem _ hknown =>
    refine (hs h h' hasked).handle _ rfl fun heq => Or.inl ?_
    -- the request asks for what the controller has just looked up
    rw [← target_of_request_eq (InboundPacket.mk.inj heq).2, hknown]
    rfl
  | flood h₁ T hmem hunknown => exact hs.flood h₁ T h h' hasked
  | learn h₁ arp hmem =>
    have hne : (⟨L.point h₁, L.reply h₁ arp⟩ : InboundPacket) ≠
        ⟨L.point h, L.request h (L.ip h')⟩ :=
      fun heq => request_ne_reply _ _ _ _ (InboundPacket.mk.inj heq).2.symm
    have hcomes := (hs h h' hasked).handle [] rfl fun heq => absurd heq hne
    rwa [List.append_nil] at hcomes
  | reply h₁ h₂ hmem =>
    rcases hs h h' hasked with hknown | hpkt | harr | ⟨pkt, hpkt, hfrom⟩
    · exact Or.inl hknown
    · exact Or.inr (Or.inl (List.mem_cons_of_mem _ hpkt))
    · by_cases heq : (L.point h', L.request h (L.ip h')) = (L.point h₂, L.request h₁ (L.ip h₂))
      · -- the request has reached the owner, whose reply is on its way
        refine Or.inr (Or.inr (Or.inr ⟨_, List.mem_cons_self, ?_⟩))
        exact (Prod.mk.inj heq).1.symm
      · exact Or.inr (Or.inr (Or.inl ((List.mem_erase_of_ne heq).mpr harr)))
    · exact Or.inr (Or.inr (Or.inr ⟨pkt, List.mem_cons_of_mem _ hpkt, hfrom⟩))
  | ignore h₁ T p hmem hnot =>
    refine (hs h h' hasked).erase fun heq => ?_
    obtain ⟨hp, hreq⟩ := Prod.mk.inj heq
    exact hnot h' hp.symm (target_of_request_eq hreq).symm
  | receive h₁ h₂ hmem _ =>
    refine (hs h h' hasked).erase fun heq => ?_
    exact absurd (Prod.mk.inj heq).2.symm (request_ne_proxied _ _ _ _ _)

theorem sought_run (es : List (LanEvent H)) :
    Sought L (run (lanNext L services) LanState.init es) := by
  have hrun : Truthful L (run (lanNext L services) LanState.init es) ∧
      Sought L (run (lanNext L services) LanState.init es) :=
    run_invariant (P := fun s => Truthful L s ∧ Sought L s)
      (fun s e ⟨ht, hs⟩ => ⟨ht.next (ht.effect services e), hs.next (ht.effect services e)⟩)
      ⟨truthful_init, fun h h' hasked => by simp [LanState.init] at hasked⟩ es
  exact hrun.2

/-- Nothing is in flight. -/
def LanState.Quiet (s : LanState H) : Prop :=
  s.packetIns = [] ∧ s.arriving = []

instance (s : LanState H) : Decidable s.Quiet :=
  inferInstanceAs (Decidable (_ ∧ _))

/-- An address that was asked for is known when nothing is in flight. -/
theorem Sought.known (hs : Sought L s) (ht : Truthful L s) (hq : s.Quiet) {h h' : H}
    (hasked : (h, L.ip h') ∈ s.asked) : s.arpTable.lookup (L.ip h') = some (L.mac h') := by
  obtain ⟨hin, harr⟩ := hq
  have hsome : (s.arpTable.lookup (L.ip h')).isSome := by
    rcases hs h h' hasked with hknown | hmem | hmem | ⟨pkt, hmem, -⟩
    · exact hknown
    · rw [hin] at hmem
      simp at hmem
    · rw [harr] at hmem
      simp at hmem
    · rw [hin] at hmem
      simp at hmem
  obtain ⟨mac, hmac⟩ := Option.isSome_iff_exists.mp hsome
  obtain ⟨h'', hip, rfl⟩ := ht.table _ _ hmac
  rw [hmac, L.ip_injective hip]

end Sought

/-- **The first request finds the address.** In every state that the network reaches in which no
packet is in flight, the controller knows the hardware address of every host whose address was
ever asked for. -/
theorem sought_known (L : Lan H) (services : Services) (es : List (LanEvent H))
    (s : LanState H) (hs : s = run (lanNext L services) LanState.init es) (hq : s.Quiet) (h h' : H)
    (hasked : (h, L.ip h') ∈ s.asked) : s.arpTable.lookup (L.ip h') = some (L.mac h') := by
  subst hs
  exact (sought_run es).known (truthful_run es) hq hasked

/-- Two hosts on the first two ports of a switch. -/
def twoHosts : Lan Bool where
  ip h := if h then ⟨2⟩ else ⟨1⟩
  mac h := if h then ⟨2⟩ else ⟨1⟩
  point h := if h then ⟨⟨1⟩, ⟨2⟩⟩ else ⟨⟨1⟩, ⟨1⟩⟩
  hostAt p := if p = ⟨⟨1⟩, ⟨1⟩⟩ then some false else if p = ⟨⟨1⟩, ⟨2⟩⟩ then some true else none
  edgePoints := [⟨⟨1⟩, ⟨1⟩⟩, ⟨⟨1⟩, ⟨2⟩⟩]
  ip_injective h h' := by cases h <;> cases h' <;> decide
  hostAt_eq_some p h := by
    cases h <;> split_ifs <;> simp_all [eq_comm]
  edgePoints_nodup := by decide
  point_mem h := by cases h <;> decide

/-- The first host asks for the second, which replies to the controller. -/
def firstRequest : List (LanEvent Bool) :=
  [.ask false ⟨2⟩, .handle ⟨⟨⟨1⟩, ⟨1⟩⟩, twoHosts.request false ⟨2⟩⟩,
    .arrive (⟨⟨1⟩, ⟨2⟩⟩, twoHosts.request false ⟨2⟩),
    .handle ⟨⟨⟨1⟩, ⟨2⟩⟩, twoHosts.reply true (twoHosts.requestArp false ⟨2⟩)⟩]

theorem sought_known_twoHosts :
    (run (lanNext twoHosts plainServices) LanState.init firstRequest).arpTable.lookup ⟨2⟩ =
      some ⟨2⟩ :=
  sought_known twoHosts plainServices firstRequest _ rfl (by decide) false true (by decide)

/-! ## Every later request is answered -/

section Load

variable [DecidableEq H] {L : Lan H} {services : Services} {s s' : LanState H} {h : H}
  {T : Ip4Address} {mac : MacAddress}

/-- The answers `mac` for `T` to `h` that are received, in flight, or due to a request on its
way. -/
def load (L : Lan H) (h : H) (T : Ip4Address) (mac : MacAddress) (s : LanState H) : ℕ :=
  s.packetIns.count ⟨L.point h, L.request h T⟩ + s.arriving.count (L.point h, L.proxied h T mac) +
    s.answers.count (h, T, mac)

omit [DecidableEq H] in
theorem request_eq_iff {h' : H} {T' : Ip4Address} :
    (⟨L.point h', L.request h' T'⟩ : InboundPacket) = ⟨L.point h, L.request h T⟩ ↔
      (h', T') = (h, T) := by
  constructor
  · intro heq
    obtain ⟨hp, hreq⟩ := InboundPacket.mk.inj heq
    rw [L.point_injective hp, target_of_request_eq hreq]
  · intro heq
    obtain ⟨rfl, rfl⟩ := Prod.mk.inj heq
    rfl

omit [DecidableEq H] in
theorem proxied_eq_iff {h' : H} {T' : Ip4Address} {mac' : MacAddress} :
    ((L.point h', L.proxied h' T' mac') : ConnectPoint × Ethernet) =
        (L.point h, L.proxied h T mac) ↔
      (h', T', mac') = (h, T, mac) := by
  constructor
  · intro heq
    obtain ⟨hp, hans⟩ := Prod.mk.inj heq
    have harp := congrArg (fun eth : Ethernet => eth.payload) hans
    simp only [Lan.proxied, arpReply, Ethernet.Payload.arp.injEq, ARP.mk.injEq] at harp
    rw [L.point_injective hp, harp.2.1, harp.2.2.1]
  · intro heq
    simp only [Prod.mk.injEq] at heq
    obtain ⟨rfl, rfl, rfl⟩ := heq
    rfl

theorem count_eq_erase_add {α : Type} [BEq α] [LawfulBEq α] {x : α} {l : List α} (hx : x ∈ l)
    (a : α) : l.count a = (l.erase x).count a + if x == a then 1 else 0 := by
  rw [(List.perm_cons_erase hx).count_eq, List.count_cons]

/-- A request for something else that is sent to the other edge points leaves the load as it is. -/
theorem load_flood {h₁ : H} {T₁ : Ip4Address} (hmem : ⟨L.point h₁, L.request h₁ T₁⟩ ∈ s.packetIns)
    (t : ArpTable) (hne : (h₁, T₁) ≠ (h, T)) :
    load L h T mac { s with
      arpTable := t
      packetIns := s.packetIns.erase ⟨L.point h₁, L.request h₁ T₁⟩
      arriving := s.arriving ++ (L.edgePoints.filter (· ≠ L.point h₁)).map
        fun p => (p, L.request h₁ T₁) } = load L h T mac s := by
  have hin := count_eq_erase_add hmem ⟨L.point h, L.request h T⟩
  have hcopies : ((L.edgePoints.filter (· ≠ L.point h₁)).map
      fun p => (p, L.request h₁ T₁)).count (L.point h, L.proxied h T mac) = 0 := by
    refine List.count_eq_zero.mpr fun hmem => ?_
    obtain ⟨p, -, heq⟩ := List.mem_map.mp hmem
    exact request_ne_proxied _ _ _ _ _ (Prod.mk.inj heq).2
  simp only [load, List.count_append, beq_iff_eq, request_eq_iff, if_neg hne] at hin ⊢
  omega

/-- **No answer is lost or duplicated**: once the address is known, the load of a host grows by one
with each of its requests, and by nothing else. -/
theorem Effect.load_eq (he : Effect L s s') (hT : s.arpTable.lookup T = some mac) :
    load L h T mac s' + s.asked.count (h, T) = load L h T mac s + s'.asked.count (h, T) := by
  unfold load
  cases he with
  | idle => rfl
  | ask h₁ T₁ =>
    simp only [List.count_cons, List.count_append, List.count_nil, beq_iff_eq, request_eq_iff]
    omega
  | answer h₁ T₁ mac₁ hmem _ hknown =>
    have hin := count_eq_erase_add hmem ⟨L.point h, L.request h T⟩
    simp only [List.count_append, List.count_singleton, beq_iff_eq, request_eq_iff,
      proxied_eq_iff] at hin ⊢
    by_cases heq : (h₁, T₁) = (h, T)
    · -- the answer is the known one
      obtain ⟨rfl, rfl⟩ := Prod.mk.inj heq
      rw [lookup_learn_of_known hT, Option.some.injEq] at hknown
      subst hknown
      simp only [if_true] at hin ⊢
      omega
    · have hne : (h₁, T₁, mac₁) ≠ (h, T, mac) := by
        rintro heq'
        simp only [Prod.mk.injEq] at heq'
        exact heq (by rw [heq'.1, heq'.2.1])
      rw [if_neg heq] at hin
      rw [if_neg hne]
      omega
  | flood h₁ T₁ hmem hunknown =>
    refine congrArg (· + _) (load_flood hmem _ fun heq => ?_)
    obtain ⟨rfl, rfl⟩ := Prod.mk.inj heq
    rw [lookup_learn_of_known hT] at hunknown
    cases hunknown
  | learn h₁ arp hmem =>
    have hin := count_eq_erase_add hmem ⟨L.point h, L.request h T⟩
    have hne : (⟨L.point h₁, L.reply h₁ arp⟩ : InboundPacket) ≠ ⟨L.point h, L.request h T⟩ :=
      fun heq => request_ne_reply _ _ _ _ (InboundPacket.mk.inj heq).2.symm
    simp only [beq_iff_eq, if_neg hne] at hin
    dsimp only
    omega
  | reply h₁ h₂ hmem =>
    have harr := count_eq_erase_add hmem (L.point h, L.proxied h T mac)
    have hne : (L.point h₂, L.request h₁ (L.ip h₂)) ≠ (L.point h, L.proxied h T mac) :=
      fun heq => request_ne_proxied _ _ _ _ _ (Prod.mk.inj heq).2
    have hne' : (⟨L.point h₂, L.reply h₂ (L.requestArp h₁ (L.ip h₂))⟩ : InboundPacket) ≠
        ⟨L.point h, L.request h T⟩ :=
      fun heq => request_ne_reply _ _ _ _ (InboundPacket.mk.inj heq).2.symm
    simp only [List.count_cons, beq_iff_eq, if_neg hne, if_neg hne'] at harr ⊢
    omega
  | ignore h₁ T₁ p hmem hnot =>
    have harr := count_eq_erase_add hmem (L.point h, L.proxied h T mac)
    have hne : (p, L.request h₁ T₁) ≠ (L.point h, L.proxied h T mac) :=
      fun heq => request_ne_proxied _ _ _ _ _ (Prod.mk.inj heq).2
    simp only [beq_iff_eq, if_neg hne] at harr
    dsimp only
    omega
  | receive h₁ h₂ hmem _ =>
    have harr := count_eq_erase_add hmem (L.point h, L.proxied h T mac)
    simp only [List.count_append, List.count_singleton, beq_iff_eq, proxied_eq_iff] at harr ⊢
    omega

omit [DecidableEq H] in
theorem Effect.known (he : Effect L s s') (hT : s.arpTable.lookup T = some mac) :
    s'.arpTable.lookup T = some mac := by
  cases he with
  | answer h₁ _ _ _ _ _ => exact lookup_learn_of_known hT h₁
  | flood h₁ _ _ _ => exact lookup_learn_of_known hT h₁
  | learn h₁ _ _ => exact lookup_learn_of_known hT h₁
  | idle => exact hT
  | ask _ _ => exact hT
  | reply _ _ _ => exact hT
  | ignore _ _ _ _ _ => exact hT
  | receive _ _ _ _ => exact hT

variable (services h) in
/-- The load after a run, by the requests made in it. -/
theorem load_run (ht : Truthful L s) (hT : s.arpTable.lookup T = some mac)
    (es : List (LanEvent H)) :
    load L h T mac (run (lanNext L services) s es) + s.asked.count (h, T) =
      load L h T mac s + (run (lanNext L services) s es).asked.count (h, T) := by
  induction es using List.reverseRecOn with
  | nil => rfl
  | append_singleton es e ih =>
    have hrun : Truthful L (run (lanNext L services) s es) ∧
        (run (lanNext L services) s es).arpTable.lookup T = some mac :=
      run_invariant (P := fun s' => Truthful L s' ∧ s'.arpTable.lookup T = some mac)
        (fun s' e ⟨ht', hT'⟩ =>
          ⟨ht'.next (ht'.effect services e), (ht'.effect services e).known hT'⟩)
        ⟨ht, hT⟩ es
    have hstep := (hrun.1.effect services e).load_eq (h := h) hrun.2
    rw [run_snoc]
    omega

end Load

/-- **Every later request is answered exactly once.** Let nothing be in flight, and let the
address of `h'` have been asked for. In every later state in which nothing is in flight, whatever
happened in between, the number of answers that a host has received for the address, with the
hardware address of `h'`, has grown by the number of its requests for it. -/
theorem requests_answered_once [DecidableEq H] (L : Lan H) (services : Services)
    (es es' : List (LanEvent H)) (s s' : LanState H)
    (hs : s = run (lanNext L services) LanState.init es) (hs' : s' = run (lanNext L services) s es')
    (hq : s.Quiet) (hq' : s'.Quiet) (h₀ h h' : H) (hasked : (h₀, L.ip h') ∈ s.asked) :
    s'.answers.count (h, L.ip h', L.mac h') + s.asked.count (h, L.ip h') =
      s.answers.count (h, L.ip h', L.mac h') + s'.asked.count (h, L.ip h') := by
  have ht : Truthful L s := by
    rw [hs]
    exact truthful_run es
  have hknown : s.arpTable.lookup (L.ip h') = some (L.mac h') := by
    subst hs
    exact (sought_run es).known ht hq hasked
  -- nothing is in flight, so the load is what was received
  have hload : ∀ {t : LanState H}, t.Quiet →
      load L h (L.ip h') (L.mac h') t = t.answers.count (h, L.ip h', L.mac h') := by
    rintro t ⟨hin, harr⟩
    simp [load, hin, harr]
  have hrun := load_run services h ht hknown es'
  rw [← hs', hload hq, hload hq'] at hrun
  exact hrun

/-- The second request of the first host for the second is answered. -/
theorem requests_answered_once_twoHosts :
    (run (lanNext twoHosts plainServices)
      (run (lanNext twoHosts plainServices) LanState.init firstRequest)
      [.ask false ⟨2⟩, .handle ⟨⟨⟨1⟩, ⟨1⟩⟩, twoHosts.request false ⟨2⟩⟩,
        .arrive (⟨⟨1⟩, ⟨1⟩⟩, twoHosts.proxied false ⟨2⟩ ⟨2⟩)]).answers.count
          (false, ⟨2⟩, ⟨2⟩) = 1 := by
  have honce := requests_answered_once twoHosts plainServices firstRequest
    [.ask false ⟨2⟩, .handle ⟨⟨⟨1⟩, ⟨1⟩⟩, twoHosts.request false ⟨2⟩⟩,
      .arrive (⟨⟨1⟩, ⟨1⟩⟩, twoHosts.proxied false ⟨2⟩ ⟨2⟩)] _ _ rfl rfl (by decide) (by decide)
    false false true (by decide)
  exact Nat.add_right_cancel (honce.trans (by decide : _ = 1 + 1))

end ProxyArp
