import OnosApps.Maps.ConcurrentMap
import OnosApps.Onos.Flow

/-!
# The learning bridge: handling a packet-in

`MyPacketProcessor.process` of the bridge application. It records the port on which the
source address was seen, looks the destination up in the table of the switch, floods the
packet when the destination is unknown, and otherwise sends it to the recorded port and
installs a rule for the pair of addresses. The application exists in two variants, which
differ in the service through which the rule is installed.

## Main definitions

* `process`: the packet handler
* `RuleRequest`, `RuleRequest.toFlowRule`: the request of each variant, and the rule it puts
  on the switch
* `portOf`: the port recorded for an address on a switch
* `Extends t t'`: the tables `t'` have an entry wherever `t` has one
* `State`, `packetIn`, `hit`, `expire`: the tables and the live rules, and how they change

## Main results

* `portOf_process`, `process_reaction`: what a call records, and what it sends and installs
* `extends_process`: a call forgets no address
* `mem_packetIn_rules`, `mem_or_replaced_packetIn`: the live rules after a packet-in
-/

namespace Bridge

open Onos

/-- The table of one switch. -/
abbrev MacAddressTable := ConcurrentMap MacAddress PortNumber

/-- `macAddressTables`: the table of each switch. -/
abbrev MacAddressTables := ConcurrentMap DeviceId MacAddressTable

/-- The service through which a variant of the application installs its rules. -/
inductive RuleService where
  | flowObjectiveService
  | flowRuleService
deriving DecidableEq, Repr

/-- A request to install a rule: `flowObjectiveService.forward(switchId, objective)` or
`flowRuleService.applyFlowRules(rule)`. -/
inductive RuleRequest where
  | forward (switchId : DeviceId) (objective : ForwardingObjective)
  | applyFlowRules (rule : FlowRule)
deriving DecidableEq

/-- What a call of `process` asks for: the output under which the packet is sent, and the
rule to install. -/
structure Reaction where
  send : Option OutPort := none
  install : Option RuleRequest := none

section Process

variable (service : RuleService) (appId : ApplicationId)

/-- The selector of a rule: the pair of addresses. -/
def pairSelector (srcMac dstMac : MacAddress) : TrafficSelector :=
  { ethSrc := some srcMac, ethDst := some dstMac }

/-- The request for a rule that sends frames from `srcMac` to `dstMac` out of `dstPort`. -/
def ruleRequest (switchId : DeviceId) (srcMac dstMac : MacAddress) (dstPort : PortNumber) :
    RuleRequest :=
  match service with
  | .flowObjectiveService =>
    .forward switchId
      { selector := pairSelector srcMac dstMac
        treatment := { output := some (.port dstPort) }
        priority := 30
        flag := .versatile
        appId := appId
        timeout := 30 }
  | .flowRuleService =>
    .applyFlowRules
      { deviceId := switchId
        selector := pairSelector srcMac dstMac
        treatment := { output := some (.port dstPort) }
        priority := 30
        appId := appId
        timeout := 30 }

/-- `MyPacketProcessor.process`. -/
def process (macAddressTables : MacAddressTables) (pkt : InboundPacket) :
    MacAddressTables × Reaction :=
  let ethPkt := pkt.parsed
  let cp := pkt.receivedFrom
  if ethPkt.getEtherType ≠ Ethernet.TYPE_ARP ∧ ethPkt.getEtherType ≠ Ethernet.TYPE_IPV4 then
    (macAddressTables, {})
  else
    -- update the table of the switch
    let switchId := cp.deviceId
    let macAddressTables := macAddressTables.putIfAbsent switchId ∅
    let macAddressTable := ((macAddressTables.lookup switchId).getD ∅).put ethPkt.sourceMAC cp.port
    let macAddressTables := macAddressTables.put switchId macAddressTable
    -- forwarding
    match macAddressTable.lookup ethPkt.destinationMAC with
    | none => (macAddressTables, { send := some .flood })
    | some dstPort =>
      (macAddressTables,
        { send := some (.port dstPort)
          install := some (ruleRequest service appId switchId ethPkt.sourceMAC
            ethPkt.destinationMAC dstPort) })

end Process

/-! ## What a call records, sends and installs -/

/-- The port recorded for the address `m` on the switch `d`. -/
def portOf (t : MacAddressTables) (d : DeviceId) (m : MacAddress) : Option PortNumber :=
  (t.lookup d).bind fun table => table.lookup m

@[simp] theorem portOf_empty (d : DeviceId) (m : MacAddress) : portOf ∅ d m = none := rfl

/-- `t'` has an entry wherever `t` has one. -/
def Extends (t t' : MacAddressTables) : Prop :=
  ∀ d m, (portOf t d m).isSome → (portOf t' d m).isSome

/-- The frames the handler does not ignore. -/
def Handled (eth : Ethernet) : Prop :=
  eth.getEtherType = Ethernet.TYPE_ARP ∨ eth.getEtherType = Ethernet.TYPE_IPV4

instance (eth : Ethernet) : Decidable (Handled eth) :=
  inferInstanceAs (Decidable (_ ∨ _))

/-- The output under which a packet is sent, by the port recorded for its destination. -/
def outputTo : Option PortNumber → OutPort
  | none => .flood
  | some p => .port p

section Spec

variable (service : RuleService) (appId : ApplicationId) (t : MacAddressTables)
  {pkt : InboundPacket}

theorem process_of_not_handled (h : ¬ Handled pkt.parsed) :
    process service appId t pkt = (t, {}) := by
  rw [Handled, not_or] at h
  exact if_pos h

theorem Handled.not_ignored {eth : Ethernet} (h : Handled eth) :
    ¬ (eth.getEtherType ≠ Ethernet.TYPE_ARP ∧ eth.getEtherType ≠ Ethernet.TYPE_IPV4) := by
  rwa [← not_or, not_not]

/-- The tables after a call: the table of the switch is created if need be, and the source
address is put into it. -/
theorem process_tables (h : Handled pkt.parsed) :
    (process service appId t pkt).1 =
      (t.putIfAbsent pkt.receivedFrom.deviceId ∅).put pkt.receivedFrom.deviceId
        ((((t.putIfAbsent pkt.receivedFrom.deviceId ∅).lookup pkt.receivedFrom.deviceId).getD
          ∅).put pkt.parsed.sourceMAC pkt.receivedFrom.port) := by
  simp only [process, if_neg h.not_ignored]
  split <;> rfl

/-- **A call records the source address** at the port the packet came in on, and nothing
else. -/
theorem portOf_process (h : Handled pkt.parsed) (d : DeviceId) (m : MacAddress) :
    portOf (process service appId t pkt).1 d m =
      if d = pkt.receivedFrom.deviceId ∧ m = pkt.parsed.sourceMAC then
        some pkt.receivedFrom.port
      else portOf t d m := by
  rw [process_tables service appId t h, portOf, ConcurrentMap.lookup_put]
  by_cases hd : d = pkt.receivedFrom.deviceId
  -- the table of the switch the packet came in on
  · rw [if_pos hd, Option.bind_some, ConcurrentMap.lookup_put, ConcurrentMap.lookup_putIfAbsent,
      if_pos rfl, Option.getD_some]
    by_cases hm : m = pkt.parsed.sourceMAC
    · rw [if_pos hm, if_pos ⟨hd, hm⟩]
    · rw [if_neg hm, if_neg fun h => hm h.2, portOf, hd]
      -- a new table is empty, as a missing one is
      cases t.lookup pkt.receivedFrom.deviceId <;> rfl
  -- another switch
  · rw [if_neg hd, if_neg fun h => hd h.1, ConcurrentMap.lookup_putIfAbsent, if_neg hd, portOf]

/-- The source of a packet is recorded after the call. -/
theorem portOf_process_source (h : Handled pkt.parsed) :
    portOf (process service appId t pkt).1 pkt.receivedFrom.deviceId pkt.parsed.sourceMAC =
      some pkt.receivedFrom.port := by
  rw [portOf_process service appId t h, if_pos ⟨rfl, rfl⟩]

/-- The tables forget no address. -/
theorem extends_process (pkt : InboundPacket) : Extends t (process service appId t pkt).1 := by
  intro d m hm
  by_cases h : Handled pkt.parsed
  · rw [portOf_process service appId t h]
    split_ifs
    · rfl
    · exact hm
  · rwa [process_of_not_handled service appId t h]

/-- **A call sends the packet** to the port recorded for its destination, and installs a rule
for that port; it floods a packet whose destination is not recorded. -/
theorem process_reaction (h : Handled pkt.parsed) :
    (process service appId t pkt).2.send =
        some (outputTo (portOf (process service appId t pkt).1 pkt.receivedFrom.deviceId
          pkt.parsed.destinationMAC)) ∧
      (process service appId t pkt).2.install =
        (portOf (process service appId t pkt).1 pkt.receivedFrom.deviceId
          pkt.parsed.destinationMAC).map (ruleRequest service appId pkt.receivedFrom.deviceId
            pkt.parsed.sourceMAC pkt.parsed.destinationMAC) := by
  simp only [process, if_neg h.not_ignored]
  split <;> rename_i hl <;>
    simp only [portOf, ConcurrentMap.lookup_put, if_true, Option.bind_some, hl, outputTo,
      Option.map_none, Option.map_some, and_self]

end Spec

/-! ## The tables and the live rules -/

/-- The tables of the application and the rules that are live in the switches. -/
structure State where
  macAddressTables : MacAddressTables
  liveRules : List FlowRule

/-- The state when the application starts. -/
def State.init : State := ⟨∅, []⟩

/-- The rule that a request puts on the switch. A versatile objective becomes one rule with
the selector, treatment, priority and timeout of the objective. -/
def RuleRequest.toFlowRule : RuleRequest → FlowRule
  | .forward switchId objective =>
    { deviceId := switchId
      selector := objective.selector
      treatment := objective.treatment
      priority := objective.priority
      appId := objective.appId
      timeout := objective.timeout }
  | .applyFlowRules rule => rule

/-- Two rules that a switch does not keep both: same switch, selector and priority. -/
def SameMatch (r r' : FlowRule) : Prop :=
  r.deviceId = r'.deviceId ∧ r.selector = r'.selector ∧ r.priority = r'.priority

instance (r r' : FlowRule) : Decidable (SameMatch r r') :=
  inferInstanceAs (Decidable (_ ∧ _))

/-- A new rule replaces the live rule with the same match. -/
def installRule (rules : List FlowRule) (r : FlowRule) : List FlowRule :=
  r :: rules.filter fun r' => ¬ SameMatch r' r

section Steps

variable (service : RuleService) (appId : ApplicationId)

/-- A packet-in is handled by `process`. -/
def packetIn (s : State) (pkt : InboundPacket) : State :=
  let (macAddressTables, reaction) := process service appId s.macAddressTables pkt
  { macAddressTables
    liveRules :=
      match reaction.install with
      | none => s.liveRules
      | some request => installRule s.liveRules request.toFlowRule }

/-- The live rule that a frame hits on the switch it arrives at. -/
def hit (s : State) (pkt : InboundPacket) : Option FlowRule :=
  s.liveRules.find? fun r =>
    r.deviceId = pkt.receivedFrom.deviceId && r.selector.matches pkt.parsed

/-- A live rule expires. -/
def expire (s : State) (r : FlowRule) : State :=
  { s with liveRules := s.liveRules.filter fun r' => r' ≠ r }

/-- The rule the application installs for a pair of addresses. -/
def pairRule (d : DeviceId) (srcMac dstMac : MacAddress) (p : PortNumber) : FlowRule :=
  { deviceId := d
    selector := pairSelector srcMac dstMac
    treatment := { output := some (.port p) }
    priority := 30
    appId := appId
    timeout := 30 }

/-- Both variants put the same rule on the switch. -/
@[simp] theorem toFlowRule_ruleRequest (d : DeviceId) (srcMac dstMac : MacAddress)
    (p : PortNumber) :
    (ruleRequest service appId d srcMac dstMac p).toFlowRule =
      pairRule appId d srcMac dstMac p := by
  cases service <;> rfl

end Steps

section StepSpec

variable {service : RuleService} {appId : ApplicationId} {s : State} {pkt : InboundPacket}

@[simp] theorem packetIn_tables :
    (packetIn service appId s pkt).macAddressTables =
      (process service appId s.macAddressTables pkt).1 := rfl

theorem packetIn_of_not_handled (h : ¬ Handled pkt.parsed) : packetIn service appId s pkt = s := by
  simp only [packetIn, process_of_not_handled service appId _ h]

theorem matches_pairSelector {m n : MacAddress} {eth : Ethernet} :
    (pairSelector m n).matches eth = true ↔ m = eth.sourceMAC ∧ n = eth.destinationMAC := by
  simp [TrafficSelector.matches, pairSelector]

/-- **The live rules after a packet-in**: the new rule, if the destination is recorded, and
the old rules that it does not replace. -/
theorem mem_packetIn_rules (h : Handled pkt.parsed) {r : FlowRule} :
    r ∈ (packetIn service appId s pkt).liveRules ↔
      (∃ p, portOf (process service appId s.macAddressTables pkt).1 pkt.receivedFrom.deviceId
          pkt.parsed.destinationMAC = some p ∧
        r = pairRule appId pkt.receivedFrom.deviceId pkt.parsed.sourceMAC
          pkt.parsed.destinationMAC p) ∨
      (r ∈ s.liveRules ∧
        ∀ p, portOf (process service appId s.macAddressTables pkt).1 pkt.receivedFrom.deviceId
            pkt.parsed.destinationMAC = some p →
          ¬ SameMatch r (pairRule appId pkt.receivedFrom.deviceId pkt.parsed.sourceMAC
            pkt.parsed.destinationMAC p)) := by
  have hinst := (process_reaction service appId s.macAddressTables h).2
  simp only [packetIn, hinst]
  cases portOf (process service appId s.macAddressTables pkt).1 pkt.receivedFrom.deviceId
      pkt.parsed.destinationMAC with
  | none => simp
  | some p => simp [installRule]

variable (service appId) in
/-- A live rule stays as it is, unless the new rule takes its place. -/
theorem mem_or_replaced_packetIn {r : FlowRule} (hr : r ∈ s.liveRules) (pkt : InboundPacket) :
    r ∈ (packetIn service appId s pkt).liveRules ∨
      ∃ p, pairRule appId pkt.receivedFrom.deviceId pkt.parsed.sourceMAC
            pkt.parsed.destinationMAC p ∈ (packetIn service appId s pkt).liveRules ∧
          SameMatch r (pairRule appId pkt.receivedFrom.deviceId pkt.parsed.sourceMAC
            pkt.parsed.destinationMAC p) := by
  by_cases h : Handled pkt.parsed
  · by_cases hkept : r ∈ (packetIn service appId s pkt).liveRules
    · exact .inl hkept
    · rw [mem_packetIn_rules h, not_or, not_and] at hkept
      have hsame := hkept.2 hr
      push Not at hsame
      obtain ⟨p, hp, hsame⟩ := hsame
      exact .inr ⟨p, (mem_packetIn_rules h).mpr (.inl ⟨p, hp, rfl⟩), hsame⟩
  · rw [packetIn_of_not_handled h]
    exact .inl hr

end StepSpec

end Bridge
