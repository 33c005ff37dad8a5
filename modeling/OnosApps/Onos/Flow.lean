import OnosApps.Onos.Packet

/-!
# Selectors, treatments and flow rules

A selector lists the criteria a frame has to meet; a criterion that is absent is met by every
frame. A treatment lists what is done with a frame.

## Main definitions

* `TrafficSelector`, `TrafficSelector.matches`
* `TrafficTreatment`, `TrafficTreatment.apply`, `OutPort`
* `FlowRule`, `ForwardingObjective`
-/

namespace Onos

/-- The application on whose behalf rules and intents are installed. -/
structure ApplicationId where
  name : String
deriving DecidableEq, Repr

/-- The output of a treatment: one port, or `PortNumber.FLOOD`. -/
inductive OutPort where
  | flood
  | port (p : PortNumber)
deriving DecidableEq, Repr

/-- The criteria of a selector. -/
structure TrafficSelector where
  ethSrc : Option MacAddress := none
  ethDst : Option MacAddress := none
  ethType : Option (BitVec 16) := none
  ipProtocol : Option (BitVec 8) := none
  udpSrc : Option TpPort := none
  udpDst : Option TpPort := none
  ipDst : Option IpPrefix := none
deriving DecidableEq

/-- The IPv4 packet a frame carries. -/
def Ethernet.ipv4? (eth : Ethernet) : Option IPv4 :=
  match eth.payload with
  | .ipv4 p => some p
  | _ => none

theorem Ethernet.ipv4?_eq_some {eth : Ethernet} {p : IPv4} :
    eth.ipv4? = some p ↔ eth.payload = .ipv4 p := by
  unfold Ethernet.ipv4?
  cases eth.payload <;> simp

/-- The UDP source and destination ports of a frame. -/
def Ethernet.udp? (eth : Ethernet) : Option (TpPort × TpPort) :=
  match eth.payload with
  | .ipv4 ⟨_, _, .udp src dst⟩ => some (src, dst)
  | _ => none

/-- Whether a frame meets every criterion of a selector. -/
def TrafficSelector.matches (s : TrafficSelector) (eth : Ethernet) : Bool :=
  s.ethSrc.all (· == eth.sourceMAC) && s.ethDst.all (· == eth.destinationMAC) &&
    s.ethType.all (· == eth.getEtherType) &&
    s.ipProtocol.all (fun n => eth.ipv4?.any fun p => n == p.protocol) &&
    s.udpSrc.all (fun n => eth.udp?.any fun u => n == u.1) &&
    s.udpDst.all (fun n => eth.udp?.any fun u => n == u.2) &&
    s.ipDst.all (fun p => eth.ipv4?.any fun ip => p.contains ip.destinationAddress)

/-- What is done with a frame: the header fields rewritten and the output. -/
structure TrafficTreatment where
  output : Option OutPort := none
  ethSrc : Option MacAddress := none
  ethDst : Option MacAddress := none
deriving DecidableEq

/-- The frame after the treatment: the addresses it sets are rewritten. -/
def TrafficTreatment.apply (t : TrafficTreatment) (eth : Ethernet) : Ethernet :=
  { eth with
    sourceMAC := t.ethSrc.getD eth.sourceMAC
    destinationMAC := t.ethDst.getD eth.destinationMAC }

/-- A rule of one switch. The timeout is in seconds, for a temporary rule. -/
structure FlowRule where
  deviceId : DeviceId
  selector : TrafficSelector
  treatment : TrafficTreatment
  priority : ℕ
  appId : ApplicationId
  timeout : ℕ
deriving DecidableEq

/-- The flag of a forwarding objective. -/
inductive ForwardingObjective.Flag where
  | versatile
  | specific
  | egress
deriving DecidableEq, Repr

/-- A forwarding objective, to be installed on a switch as a rule. -/
structure ForwardingObjective where
  selector : TrafficSelector
  treatment : TrafficTreatment
  priority : ℕ
  flag : ForwardingObjective.Flag
  appId : ApplicationId
  timeout : ℕ
deriving DecidableEq

end Onos
