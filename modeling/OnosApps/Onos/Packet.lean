import OnosApps.Onos.Address

/-!
# Parsed packets

The parts of a parsed Ethernet frame that the applications read. The EtherType of a frame is
that of its payload: a frame of type ARP carries an ARP packet and a frame of type IPv4 an
IPv4 packet, as the parser of ONOS builds them.

## Main definitions

* `ARP`, `IPv4`, `Ethernet`: the parsed headers
* `Ethernet.getEtherType`, `Ethernet.TYPE_ARP`, `Ethernet.TYPE_IPV4`
* `InboundPacket`: a packet-in, with the connect point it came from
-/

namespace Onos

/-- The transport ports of UDP. -/
abbrev TpPort := BitVec 16

namespace ARP

/-- `ARP.OP_REQUEST`. -/
def OP_REQUEST : BitVec 16 := 1

/-- `ARP.OP_REPLY`. -/
def OP_REPLY : BitVec 16 := 2

end ARP

/-- An ARP packet. -/
structure ARP where
  opCode : BitVec 16
  senderHardwareAddress : MacAddress
  senderProtocolAddress : Ip4Address
  targetHardwareAddress : MacAddress
  targetProtocolAddress : Ip4Address
deriving DecidableEq, Repr

/-- `IPv4.PROTOCOL_UDP`. -/
def PROTOCOL_UDP : BitVec 8 := 17

/-- The payload of an IPv4 packet: a UDP datagram, or another protocol. -/
inductive IpPayload where
  | udp (sourcePort destinationPort : TpPort)
  | other (protocol : { p : BitVec 8 // p ≠ PROTOCOL_UDP })
deriving DecidableEq

/-- An IPv4 packet. -/
structure IPv4 where
  sourceAddress : Ip4Address
  destinationAddress : Ip4Address
  payload : IpPayload
deriving DecidableEq

/-- The IP protocol number of a packet. -/
def IPv4.protocol (p : IPv4) : BitVec 8 :=
  match p.payload with
  | .udp _ _ => PROTOCOL_UDP
  | .other protocol => protocol

namespace Ethernet

/-- `Ethernet.TYPE_ARP`. -/
def TYPE_ARP : BitVec 16 := 0x0806

/-- `Ethernet.TYPE_IPV4`. -/
def TYPE_IPV4 : BitVec 16 := 0x0800

/-- The payload of a frame, by its EtherType. -/
inductive Payload where
  | arp (p : ARP)
  | ipv4 (p : IPv4)
  | other (etherType : { t : BitVec 16 // t ≠ TYPE_ARP ∧ t ≠ TYPE_IPV4 })
deriving DecidableEq

end Ethernet

/-- A parsed Ethernet frame. -/
structure Ethernet where
  sourceMAC : MacAddress
  destinationMAC : MacAddress
  payload : Ethernet.Payload
deriving DecidableEq

namespace Ethernet

/-- `ethPkt.getEtherType()`. -/
def getEtherType (eth : Ethernet) : BitVec 16 :=
  match eth.payload with
  | .arp _ => TYPE_ARP
  | .ipv4 _ => TYPE_IPV4
  | .other t => t

end Ethernet

/-- A packet-in: the parsed frame and the connect point it was received from. -/
structure InboundPacket where
  receivedFrom : ConnectPoint
  parsed : Ethernet
deriving DecidableEq

end Onos
