import OnosApps.ProxyArp.Process

/-!
# Proxy ARP: what is emitted over a run

What the application emits for a packet is determined by the ARP packets it has seen so far,
the current one included: a request is answered if its target has announced itself, and is
otherwise sent to every other edge point. The answer is the first announcement of the target,
so it is current exactly as long as the target's last announcement repeats its first.

## Main definitions

* `announced T h`: the Ethernet sources of the ARP packets with sender address `T`
* `emitted h context`: what is emitted for `context` after the history `h`
* `Binds pkt T mac`: the outbound packet is an ARP packet that announces `T` at `mac`
* `AnswersFresh`: every answer of a run gives the latest announcement

## Main results

* `emitted_request`, `emitted_of_request?_eq_none`: the emissions as a function of the history
* `emissions_determined_by_history`: requests are answered once or sent out once
* `binds_emitted_iff`: the answers are the first announcements
* `answersFresh_iff`: when all answers of a run are current
-/

namespace ProxyArp

open Onos Runs ConcurrentMap

variable {B : Type}

/-- The Ethernet sources of the ARP packets of a history with sender address `T`, in the order
in which they came in. -/
def announced (T : Ip4Address) (h : List (PacketContext B)) : List MacAddress :=
  writes T (announcements h)

/-- The packets emitted for `context` after the history `h`. -/
def emitted (services : Services) (h : List (PacketContext B)) (context : PacketContext B) :
    List (OutboundPacket B) :=
  (process services (arpTableAfter services h) context).2

/-- The answer to the request `arp` of `context`, at the port the request came in on. -/
def replyTo (context : PacketContext B) (arp : ARP) (mac : MacAddress) : OutboundPacket B :=
  outboundTo context.inPacket.receivedFrom
    (.wrap (arpReply arp.targetProtocolAddress mac context.inPacket.parsed arp))

/-- The request of `context` as it came in, at every other edge point. -/
def floodOf (context : PacketContext B) : List (OutboundPacket B) :=
  (context.edgePoints.filter (· ≠ context.inPacket.receivedFrom)).map fun point =>
    outboundTo point (.unparsed context.unparsed)

section Emissions

variable (services : Services) (h : List (PacketContext B)) {context : PacketContext B}
  {arp : ARP}

theorem announced_append (T : Ip4Address) (h h' : List (PacketContext B)) :
    announced T (h ++ h') = announced T h ++ announced T h' := by
  simp [announced]

theorem emitted_of_request?_eq_none (hreq : context.request? = none) :
    emitted services h context = [] := by
  unfold emitted
  cases harp : context.arp? with
  | none => rw [process_of_arp?_eq_none _ harp]
  | some arp =>
    have hop : arp.opCode ≠ ARP.OP_REQUEST := by
      simpa [PacketContext.request?, harp, Option.filter_eq_none_iff] using hreq
    rw [process_of_arp?_eq_some _ harp, if_neg hop]

/-- **The emissions of a request** are determined by the announcements of its target, up to and
including the request itself. -/
theorem emitted_request (hreq : context.request? = some arp) :
    emitted services h context =
      match (announced arp.targetProtocolAddress (h ++ [context])).head? with
      | some mac => [replyTo context arp mac]
      | none => floodOf context := by
  obtain ⟨harp, hop⟩ := Option.filter_eq_some_iff.mp hreq
  -- the table the call reads is the table after the call
  have htable : arpTableAfter services (h ++ [context]) =
      (arpTableAfter services h).putIfAbsent arp.senderProtocolAddress
        context.inPacket.parsed.sourceMAC := by
    unfold arpTableAfter
    rw [run_snoc, process_of_arp?_eq_some _ harp]
  unfold emitted announced
  rw [process_of_arp?_eq_some _ harp, if_pos (by simpa using hop), ← htable,
    lookup_arpTableAfter]
  rfl

theorem mem_floodOf {pkt : OutboundPacket B} :
    pkt ∈ floodOf context ↔ ∃ point ∈ context.edgePoints,
      point ≠ context.inPacket.receivedFrom ∧
        pkt = outboundTo point (.unparsed context.unparsed) := by
  simp only [floodOf, List.mem_map, List.mem_filter, decide_eq_true_eq]
  constructor
  · rintro ⟨point, ⟨hedge, hne⟩, rfl⟩
    exact ⟨point, hedge, hne, rfl⟩
  · rintro ⟨point, hedge, hne, rfl⟩
    exact ⟨point, ⟨hedge, hne⟩, rfl⟩

theorem nodup_floodOf (context : PacketContext B) : (floodOf context).Nodup :=
  (context.edgePoints_nodup.filter _).map (outboundTo_injective _)

theorem emitted_of_announced (hreq : context.request? = some arp)
    (hseen : announced arp.targetProtocolAddress (h ++ [context]) ≠ []) :
    ∃ mac ∈ announced arp.targetProtocolAddress (h ++ [context]),
      emitted services h context = [replyTo context arp mac] := by
  obtain ⟨mac, macs, hmacs⟩ := List.exists_cons_of_ne_nil hseen
  refine ⟨mac, by simp [hmacs], ?_⟩
  rw [emitted_request services h hreq, hmacs, List.head?_cons]

end Emissions

/-- **The emissions are determined by the history.** After any history `h`, a request for `T`
that is not handled yet is answered with one packet, an ARP reply at the port it came in on
that binds `T` to the Ethernet source of an ARP packet from `T`, if there was one up to and
including the request; otherwise exactly one copy of the request goes to every other edge
point, and none back. Nothing else is emitted. Once a packet from `T` was seen, every later
request for `T` is answered. -/
theorem emissions_determined_by_history (services : Services) (h : List (PacketContext B))
    (context : PacketContext B) :
    (∀ arp, context.request? = some arp →
      (announced arp.targetProtocolAddress (h ++ [context]) ≠ [] →
        ∃ mac ∈ announced arp.targetProtocolAddress (h ++ [context]),
          emitted services h context = [replyTo context arp mac]) ∧
      (announced arp.targetProtocolAddress (h ++ [context]) = [] →
        (emitted services h context).Nodup ∧
          ∀ pkt, pkt ∈ emitted services h context ↔ ∃ point ∈ context.edgePoints,
            point ≠ context.inPacket.receivedFrom ∧
              pkt = outboundTo point (.unparsed context.unparsed))) ∧
    (context.request? = none → emitted services h context = []) ∧
    (∀ arp h', announced arp.targetProtocolAddress h ≠ [] → context.request? = some arp →
      ∃ mac, emitted services (h ++ h') context = [replyTo context arp mac]) := by
  refine ⟨fun arp hreq => ⟨emitted_of_announced services h hreq, fun hnone => ?_⟩,
    emitted_of_request?_eq_none services h, fun arp h' hseen hreq => ?_⟩
  -- the target is unknown: the request goes out to the other edge points
  · rw [emitted_request services h hreq, hnone, List.head?_nil]
    exact ⟨nodup_floodOf context, fun pkt => mem_floodOf⟩
  -- an announcement is never forgotten
  · obtain ⟨mac, -, hmac⟩ := emitted_of_announced services (h ++ h') hreq
      (by simp [announced_append, hseen])
    exact ⟨mac, hmac⟩

/-- A `compareTo` that only tells whether two points are equal, and a `buildArpReply` that returns
what is no ARP packet as it is. -/
def plainServices : Services where
  compareTo p q := if p = q then 0 else 1
  buildArpReply srcIp srcMac request :=
    match request.payload with
    | .arp arp => arpReply srcIp srcMac request arp
    | _ => request
  compareTo_eq_zero p q := by split_ifs with h <;> simp [h]
  buildArpReply_eq srcIp srcMac request arp h := by rw [h]

/-- An ARP packet of the host `(mac, ip)` on its own port of switch 1, where three hosts are
attached. -/
def hostArp (op : BitVec 16) (port : ℕ) (mac : BitVec 48) (ip target : BitVec 32) :
    PacketContext Unit where
  isHandled := false
  inPacket := ⟨⟨⟨1⟩, ⟨port⟩⟩, ⟨⟨mac⟩, ⟨0xffffffffffff⟩, .arp ⟨op, ⟨mac⟩, ⟨ip⟩, ⟨0⟩, ⟨target⟩⟩⟩⟩
  unparsed := ()
  edgePoints := [⟨⟨1⟩, ⟨1⟩⟩, ⟨⟨1⟩, ⟨2⟩⟩, ⟨⟨1⟩, ⟨3⟩⟩]
  edgePoints_nodup := by decide

/-- The first request of a run is sent to the two other ports, and its sender is known from then
on. -/
theorem emissions_determined_by_history_first :
    (∀ pkt, pkt ∈ emitted plainServices [] (hostArp ARP.OP_REQUEST 1 1 1 2) ↔
      ∃ point ∈ (hostArp ARP.OP_REQUEST 1 1 1 2).edgePoints, point ≠ ⟨⟨1⟩, ⟨1⟩⟩ ∧
        pkt = outboundTo point (.unparsed ())) ∧
    ∃ mac, emitted plainServices [hostArp ARP.OP_REQUEST 1 1 1 2]
        (hostArp ARP.OP_REQUEST 3 3 3 1) =
      [replyTo (hostArp ARP.OP_REQUEST 3 3 3 1) ⟨ARP.OP_REQUEST, ⟨3⟩, ⟨3⟩, ⟨0⟩, ⟨1⟩⟩ mac] := by
  constructor
  · exact (((emissions_determined_by_history plainServices [] (hostArp ARP.OP_REQUEST 1 1 1 2)).1
      ⟨ARP.OP_REQUEST, ⟨1⟩, ⟨1⟩, ⟨0⟩, ⟨2⟩⟩ (by decide)).2 (by decide)).2
  · exact (emissions_determined_by_history plainServices [hostArp ARP.OP_REQUEST 1 1 1 2]
      (hostArp ARP.OP_REQUEST 3 3 3 1)).2.2 ⟨ARP.OP_REQUEST, ⟨3⟩, ⟨3⟩, ⟨0⟩, ⟨1⟩⟩ [] (by decide)
        (by decide)

/-! ## Fresh answers -/

section Freshness

/-- The outbound packet is an ARP packet that announces `T` at `mac`. -/
def Binds (pkt : OutboundPacket B) (T : Ip4Address) (mac : MacAddress) : Prop :=
  ∃ eth arp, pkt.data = .wrap eth ∧ eth.payload = .arp arp ∧
    arp.senderProtocolAddress = T ∧ arp.senderHardwareAddress = mac

/-- The hardware addresses announced for `T` by the ARP packets of a history, in the order in
which they came in. -/
def hardwareAddresses (T : Ip4Address) (h : List (PacketContext B)) : List MacAddress :=
  writes T (h.filterMap fun context =>
    context.arp?.map fun arp => (arp.senderProtocolAddress, arp.senderHardwareAddress))

/-- A packet-in that is not handled yet and carries an ARP packet whose sender hardware address
is the source of the frame. -/
def Genuine (context : PacketContext B) : Prop :=
  ∃ arp, context.arp? = some arp ∧
    arp.senderHardwareAddress = context.inPacket.parsed.sourceMAC

/-- Every answer of the run gives the hardware address that was announced last. -/
def AnswersFresh (services : Services) (es : List (PacketContext B)) : Prop :=
  ∀ h context, h ++ [context] <+: es → ∀ pkt ∈ emitted services h context, ∀ T mac,
    Binds pkt T mac → (hardwareAddresses T (h ++ [context])).getLast? = some mac

variable {h : List (PacketContext B)} {context : PacketContext B}

theorem hardwareAddresses_eq_announced (hgen : ∀ c ∈ h, Genuine c) (T : Ip4Address) :
    hardwareAddresses T h = announced T h := by
  unfold hardwareAddresses announced announcements
  congr 1
  refine List.filterMap_congr fun c hc => ?_
  obtain ⟨arp, harp, hmac⟩ := hgen c hc
  simp [harp, hmac]

theorem binds_replyTo {arp : ARP} {mac mac' : MacAddress} {T : Ip4Address} :
    Binds (replyTo context arp mac) T mac' ↔ arp.targetProtocolAddress = T ∧ mac = mac' := by
  constructor
  · rintro ⟨eth, arp', heth, harp, rfl, rfl⟩
    obtain rfl : arpReply arp.targetProtocolAddress mac context.inPacket.parsed arp = eth :=
      ByteBuffer.wrap.inj heth
    obtain rfl := Ethernet.Payload.arp.inj harp
    exact ⟨rfl, rfl⟩
  · rintro ⟨rfl, rfl⟩
    exact ⟨_, _, rfl, rfl, rfl, rfl⟩

theorem not_binds_of_mem_floodOf {pkt : OutboundPacket B} {T : Ip4Address} {mac : MacAddress}
    (hpkt : pkt ∈ floodOf context) : ¬ Binds pkt T mac := by
  rintro ⟨eth, -, heth, -⟩
  obtain ⟨point, -, -, rfl⟩ := mem_floodOf.mp hpkt
  cases heth

/-- The answers are the first announcements of the addresses asked for. -/
theorem binds_emitted_iff (services : Services) (T : Ip4Address) (mac : MacAddress) :
    (∃ pkt ∈ emitted services h context, Binds pkt T mac) ↔
      (∃ arp, context.request? = some arp ∧ arp.targetProtocolAddress = T) ∧
        (announced T (h ++ [context])).head? = some mac := by
  cases hreq : context.request? with
  | none => simp [emitted_of_request?_eq_none services h hreq]
  | some arp =>
    rw [emitted_request services h hreq]
    cases hfirst : (announced arp.targetProtocolAddress (h ++ [context])).head? with
    | some mac' =>
      simp only [List.mem_singleton, exists_eq_left, binds_replyTo, Option.some.injEq,
        exists_eq_left']
      refine and_congr_right fun hT => ?_
      rw [← hT, hfirst, Option.some.injEq]
    | none =>
      constructor
      · rintro ⟨pkt, hpkt, hbinds⟩
        exact absurd hbinds (not_binds_of_mem_floodOf hpkt)
      · rintro ⟨⟨arp', harp', rfl⟩, hmac⟩
        obtain rfl := Option.some.inj harp'
        simp [hfirst] at hmac

end Freshness

/-- **When the answers are fresh.** In a run of ARP packets whose Ethernet source is their
sender hardware address, every answer gives the hardware address announced last for the
address asked for, exactly when at every request the first and the last announcement of the
address asked for agree: `putIfAbsent` never takes up another one. -/
theorem answersFresh_iff (services : Services) (es : List (PacketContext B))
    (hes : ∀ context ∈ es, Genuine context) :
    AnswersFresh services es ↔ ∀ h context arp, h ++ [context] <+: es →
      context.request? = some arp →
        (hardwareAddresses arp.targetProtocolAddress (h ++ [context])).head? =
          (hardwareAddresses arp.targetProtocolAddress (h ++ [context])).getLast? := by
  -- the table holds Ethernet sources, which are the hardware addresses here
  have hsource : ∀ {h : List (PacketContext B)} {context}, h ++ [context] <+: es → ∀ T,
      announced T (h ++ [context]) = hardwareAddresses T (h ++ [context]) := fun hp T =>
    (hardwareAddresses_eq_announced (fun c hc => hes c (hp.subset hc)) T).symm
  constructor
  · intro hfresh h context arp hp hreq
    cases hfirst : (hardwareAddresses arp.targetProtocolAddress (h ++ [context])).head? with
    | none => simp [List.head?_eq_none_iff.mp hfirst]
    | some mac =>
      obtain ⟨pkt, hpkt, hbinds⟩ := (binds_emitted_iff services _ mac).mpr
        ⟨⟨arp, hreq, rfl⟩, (hsource hp _).symm ▸ hfirst⟩
      exact (hfresh h context hp pkt hpkt _ mac hbinds).symm
  · intro hsame h context hp pkt hpkt T mac hbinds
    obtain ⟨⟨arp, hreq, rfl⟩, hfirst⟩ := (binds_emitted_iff services T mac).mp ⟨pkt, hpkt, hbinds⟩
    rw [hsource hp] at hfirst
    rw [← hsame h context arp hp hreq, hfirst]

/-- A host that has announced itself with one hardware address is found at it. -/
theorem answersFresh_iff_announced_once :
    AnswersFresh plainServices
      [hostArp ARP.OP_REPLY 2 2 2 1, hostArp ARP.OP_REQUEST 1 1 1 2] := by
  refine (answersFresh_iff plainServices _ ?_).mpr ?_
  · simp only [List.mem_cons, List.not_mem_nil, or_false, forall_eq_or_imp, forall_eq]
    exact ⟨⟨_, rfl, rfl⟩, ⟨_, rfl, rfl⟩⟩
  · intro h context arp hp hreq
    obtain ⟨rest, hrest⟩ := hp
    -- the run has two packets: the second is the request
    rcases h with - | ⟨c, - | ⟨c', h⟩⟩
    · simp only [List.nil_append, List.singleton_append, List.cons.injEq] at hrest
      have hnone : (hostArp ARP.OP_REPLY 2 2 2 1).request? = none := by decide
      rw [hrest.1, hnone] at hreq
      cases hreq
    · simp only [List.cons_append, List.nil_append, List.cons.injEq] at hrest
      have hsome : (hostArp ARP.OP_REQUEST 1 1 1 2).request? =
          some ⟨ARP.OP_REQUEST, ⟨1⟩, ⟨1⟩, ⟨0⟩, ⟨2⟩⟩ := by decide
      rw [hrest.2.1, hsome, Option.some.injEq] at hreq
      rw [hrest.1, hrest.2.1, ← hreq]
      decide
    · simp at hrest

/-- **An address that has moved.** The address 2 is announced at the hardware address 2 and
later at the hardware address 3, and is then asked for: the answer is still 2. -/
theorem answer_of_moved_address :
    ¬ AnswersFresh plainServices
      [hostArp ARP.OP_REPLY 2 2 2 1, hostArp ARP.OP_REPLY 3 3 2 1,
        hostArp ARP.OP_REQUEST 1 1 1 2] := by
  intro hfresh
  have hlast := hfresh [hostArp ARP.OP_REPLY 2 2 2 1, hostArp ARP.OP_REPLY 3 3 2 1]
    (hostArp ARP.OP_REQUEST 1 1 1 2) (List.prefix_refl _)
    (replyTo (hostArp ARP.OP_REQUEST 1 1 1 2) ⟨ARP.OP_REQUEST, ⟨1⟩, ⟨1⟩, ⟨0⟩, ⟨2⟩⟩ ⟨2⟩)
    (by decide) ⟨2⟩ ⟨2⟩ (binds_replyTo.mpr ⟨rfl, rfl⟩)
  exact absurd hlast (by decide)

end ProxyArp
