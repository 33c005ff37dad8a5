import OnosApps.Maps.ConcurrentMap
import OnosApps.Onos.Flow
import OnosApps.Runs.Run

/-!
# Proxy ARP: the packet processor

`MyPacketProcessor.process` of the proxy ARP application. It records the sender of every ARP
packet it sees, answers a request from the table if it can, and sends it to the other edge
points if it cannot. The table is a function of the packets seen so far: it holds, for every
address, the first announcement.

## Main definitions

* `ByteBuffer`, `OutboundPacket`: what is emitted
* `PacketContext`: a packet-in, with the edge points of the network at that time
* `arpReply`: the reply to the sender of a request
* `Services`: `ConnectPoint.compareTo` and `ARP.buildArpReply`
* `process`
* `announcements h`: the address and the Ethernet source of each ARP packet of a history
* `arpTableAfter h`: the table after a history

## Main results

* `process_of_arp?_eq_none`, `process_of_arp?_eq_some`: what a call does
* `lookup_arpTableAfter`: the table holds the first announcement of every address
-/

namespace ProxyArp

open Onos Runs

/-- The data of an outbound packet: a serialized frame, or the bytes of a packet-in as they
came in. -/
inductive ByteBuffer (B : Type) where
  | wrap (eth : Ethernet)
  | unparsed (bytes : B)
deriving DecidableEq

/-- A packet to be emitted by a switch. -/
structure OutboundPacket (B : Type) where
  sendThrough : DeviceId
  treatment : TrafficTreatment
  data : ByteBuffer B
deriving DecidableEq

/-- A packet-in, its bytes, and the edge points of the network when it is handled. -/
structure PacketContext (B : Type) where
  isHandled : Bool
  inPacket : InboundPacket
  unparsed : B
  edgePoints : List ConnectPoint
  edgePoints_nodup : edgePoints.Nodup

/-- The reply to the sender of `request`, whose ARP packet is `arp`: `srcIp` is at `srcMac`. -/
def arpReply (srcIp : Ip4Address) (srcMac : MacAddress) (request : Ethernet) (arp : ARP) :
    Ethernet where
  sourceMAC := srcMac
  destinationMAC := request.sourceMAC
  payload := .arp
    { opCode := ARP.OP_REPLY
      senderHardwareAddress := srcMac
      senderProtocolAddress := srcIp
      targetHardwareAddress := request.sourceMAC
      targetProtocolAddress := arp.senderProtocolAddress }

/-- The parts of ONOS that the processor calls: `ConnectPoint.compareTo`, by which two points
compare as equal only if they are, and `ARP.buildArpReply`, which builds the reply to the sender of
an ARP packet. -/
structure Services where
  compareTo : ConnectPoint → ConnectPoint → ℤ
  buildArpReply : Ip4Address → MacAddress → Ethernet → Ethernet
  compareTo_eq_zero : ∀ p q, compareTo p q = 0 ↔ p = q
  buildArpReply_eq : ∀ srcIp srcMac request arp, request.payload = .arp arp →
    buildArpReply srcIp srcMac request = arpReply srcIp srcMac request arp

/-- The packet emitted at the port `point`. -/
def outboundTo {B : Type} (point : ConnectPoint) (data : ByteBuffer B) : OutboundPacket B where
  sendThrough := point.deviceId
  treatment := { output := some (.port point.port) }
  data := data

theorem outboundTo_injective {B : Type} (data : ByteBuffer B) :
    Function.Injective fun point => outboundTo point data := by
  rintro ⟨d, p⟩ ⟨d', p'⟩ h
  simp only [outboundTo, OutboundPacket.mk.injEq, TrafficTreatment.mk.injEq, Option.some.injEq,
    OutPort.port.injEq, and_true] at h
  rw [h.1, h.2]

/-- `arpTable`. -/
abbrev ArpTable := ConcurrentMap Ip4Address MacAddress

variable {B : Type} (services : Services)

/-- `MyPacketProcessor.process`: the table after the call, and the packets emitted. -/
def process (arpTable : ArpTable) (context : PacketContext B) :
    ArpTable × List (OutboundPacket B) :=
  if context.isHandled then (arpTable, [])
  else
    let ethPkt := context.inPacket.parsed
    -- a frame of another EtherType is left to other applications
    match ethPkt.payload with
    | .arp arp =>
      let srcIp := arp.senderProtocolAddress
      let dstIp := arp.targetProtocolAddress
      let srcMac := ethPkt.sourceMAC
      let cp := context.inPacket.receivedFrom
      -- learning comes before the lookup: a host that asks for itself is answered
      let arpTable := arpTable.putIfAbsent srcIp srcMac
      if arp.opCode = ARP.OP_REQUEST then
        match arpTable.lookup dstIp with
        | some mac => (arpTable, [outboundTo cp (.wrap (services.buildArpReply dstIp mac ethPkt))])
        | none =>
          (arpTable, (context.edgePoints.filter (services.compareTo · cp ≠ 0)).map fun point =>
            outboundTo point (.unparsed context.unparsed))
      -- a reply is only logged
      else (arpTable, [])
    | _ => (arpTable, [])

/-! ## The history of announcements -/

section History

/-- The ARP packet of a packet-in that is not handled yet. -/
def PacketContext.arp? (context : PacketContext B) : Option ARP :=
  if context.isHandled then none
  else match context.inPacket.parsed.payload with
    | .arp arp => some arp
    | _ => none

/-- The ARP request of a packet-in that is not handled yet. -/
def PacketContext.request? (context : PacketContext B) : Option ARP :=
  context.arp?.filter (·.opCode = ARP.OP_REQUEST)

/-- The sender address and the Ethernet source of the ARP packets of a history that were not
handled yet, in the order in which they came in. -/
def announcements (h : List (PacketContext B)) : List (Ip4Address × MacAddress) :=
  h.filterMap fun context =>
    context.arp?.map fun arp => (arp.senderProtocolAddress, context.inPacket.parsed.sourceMAC)

@[simp] theorem announcements_append (h h' : List (PacketContext B)) :
    announcements (h ++ h') = announcements h ++ announcements h' :=
  List.filterMap_append

theorem announcements_singleton (context : PacketContext B) :
    announcements [context] = (context.arp?.map fun arp =>
      (arp.senderProtocolAddress, context.inPacket.parsed.sourceMAC)).toList := by
  cases h : context.arp? <;> simp [announcements, h]

/-- The table after the history `h`, from the empty table of `activate`. -/
def arpTableAfter (h : List (PacketContext B)) : ArpTable :=
  run (fun t context => (process services t context).1) ∅ h

variable {services}

theorem PacketContext.arp?_eq_some {context : PacketContext B} {arp : ARP} :
    context.arp? = some arp ↔
      context.isHandled = false ∧ context.inPacket.parsed.payload = .arp arp := by
  unfold PacketContext.arp?
  cases context.isHandled <;> cases context.inPacket.parsed.payload <;> simp

theorem process_of_arp?_eq_none {context : PacketContext B} (t : ArpTable)
    (harp : context.arp? = none) : process services t context = (t, []) := by
  unfold process
  split_ifs with hh
  · rfl
  · dsimp only
    split
    next arp hp =>
      have hsome : context.arp? = some arp :=
        PacketContext.arp?_eq_some.mpr ⟨Bool.eq_false_iff.mpr hh, hp⟩
      simp [harp] at hsome
    next => rfl

/-- What the call does with an ARP packet, with the table it has just written. -/
theorem process_of_arp?_eq_some {context : PacketContext B} {arp : ARP} (t : ArpTable)
    (harp : context.arp? = some arp) :
    let cp := context.inPacket.receivedFrom
    let t' := t.putIfAbsent arp.senderProtocolAddress context.inPacket.parsed.sourceMAC
    process services t context = (t',
      if arp.opCode = ARP.OP_REQUEST then
        match t'.lookup arp.targetProtocolAddress with
        | some mac => [outboundTo cp (.wrap
            (arpReply arp.targetProtocolAddress mac context.inPacket.parsed arp))]
        | none => (context.edgePoints.filter (· ≠ cp)).map fun point =>
            outboundTo point (.unparsed context.unparsed)
      else []) := by
  obtain ⟨hh, hp⟩ := PacketContext.arp?_eq_some.mp harp
  simp only [process, hh, hp, Bool.false_eq_true, if_false, ne_eq, services.compareTo_eq_zero,
    services.buildArpReply_eq _ _ _ arp hp]
  split_ifs
  · split <;> rfl
  · rfl

theorem process_fst (t : ArpTable) (context : PacketContext B) :
    (process services t context).1 =
      (announcements [context]).foldl (fun m w => m.putIfAbsent w.1 w.2) t := by
  rw [announcements_singleton]
  cases harp : context.arp? with
  | none => simp [process_of_arp?_eq_none t harp]
  | some arp => simp [process_of_arp?_eq_some t harp]

theorem arpTableAfter_eq_foldl (h : List (PacketContext B)) :
    arpTableAfter services h = (announcements h).foldl (fun m w => m.putIfAbsent w.1 w.2) ∅ := by
  unfold arpTableAfter
  induction h using List.reverseRecOn with
  | nil => rfl
  | append_singleton h context ih =>
    rw [run_snoc, process_fst, ih, announcements_append, List.foldl_append]

/-- **The table of a history**: the entry for an address is the Ethernet source of the first
ARP packet that had it as its sender address. -/
theorem lookup_arpTableAfter (h : List (PacketContext B)) (T : Ip4Address) :
    (arpTableAfter services h).lookup T = (ConcurrentMap.writes T (announcements h)).head? := by
  rw [arpTableAfter_eq_foldl, ConcurrentMap.lookup_foldl_putIfAbsent]

end History

end ProxyArp
