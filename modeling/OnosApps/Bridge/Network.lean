import OnosApps.Bridge.RuleCache
import OnosApps.Bridge.Topology

/-!
# A network of learning bridges

A tree of switches, all controlled by one instance of the bridge application. Hosts inject
frames, copies of frames are in flight between switches, and rules expire; the steps come in
any order. A copy that arrives at a switch is output by the live rule it hits, or else by
`process`; an output that names the port the copy came in on is dropped.

## Main definitions

* `Frame`, `Copy`, `Net`: frames, their copies in flight, and the state of the network
* `NetEvent`, `netNext`: the steps
* `TablesPoint`, `RulePoints`, `CopiesLeave`: the tables and a rule point at the hosts, and every
  copy in flight moves away from its sender
* `PointsAtHosts`: all three

## Main results

* `bridge_netNext_cases`: what a step does to tables and rules
* `PointsAtHosts.netNext`, `pointsAtHosts_run`: the invariant holds along every run
* `tables_and_rules_point_at_hosts`: its reading for tables and rules
-/

namespace Bridge

open Onos Runs

variable {H : Type}

/-- A frame injected by `sender`; `id` counts the injections before it. -/
structure Frame (H : Type) where
  id : ℕ
  sender : H
  eth : Ethernet
deriving DecidableEq

/-- A copy of a frame that is about to enter a switch. -/
structure Copy (H : Type) where
  frame : Frame H
  cp : ConnectPoint
deriving DecidableEq

/-- The state of the network. -/
structure Net (H : Type) where
  bridge : State
  injected : List (Frame H)
  inFlight : List (Copy H)
  received : List (H × Frame H)

/-- The network when the application starts. -/
def Net.init : Net H := ⟨State.init, [], [], []⟩

inductive NetEvent (H : Type) where
  | inject (h : H) (eth : Ethernet)
  | hop (c : Copy H)
  | expire (r : FlowRule)

section Steps

variable (T : Topology H)

/-- The ports a copy leaves a switch by. -/
def outPorts (cp : ConnectPoint) : Option OutPort → List PortNumber
  | none => []
  -- every port but the ingress
  | some .flood => (T.ports cp.deviceId).filter fun q => q ≠ cp.port
  -- an output that names the ingress port is dropped
  | some (.port q) => if q = cp.port then [] else [q]

/-- The copy that arrives at the next switch. -/
def forwarded (f : Frame H) (d : DeviceId) (q : PortNumber) : Option (Copy H) :=
  match T.attached ⟨d, q⟩ with
  | some (.link cp) => some ⟨f, cp⟩
  | _ => none

/-- The host that receives the frame. -/
def delivered (f : Frame H) (d : DeviceId) (q : PortNumber) : Option (H × Frame H) :=
  match T.attached ⟨d, q⟩ with
  | some (.host h) => some (h, f)
  | _ => none

variable (service : RuleService) (appId : ApplicationId) [DecidableEq H]

/-- One step of the network. A host sends ARP and IPv4 frames under its own address; a hop
needs a copy in flight. -/
def netNext (s : Net H) : NetEvent H → Net H
  | .inject h eth =>
    -- the frame enters the switch of its sender
    if eth.sourceMAC = T.mac h ∧ Handled eth then
      let f : Frame H := ⟨s.injected.length, h, eth⟩
      { s with
        injected := s.injected ++ [f]
        inFlight := ⟨f, T.hostPort h⟩ :: s.inFlight }
    else s
  | .hop c =>
    -- the switch takes the copy and puts out its copies
    if c ∈ s.inFlight then
      let e := Event.frame ⟨c.cp, c.frame.eth⟩
      let qs := outPorts T c.cp (cachedOut service appId s.bridge e)
      { s with
        bridge := cachedNext service appId s.bridge e
        inFlight := s.inFlight.erase c ++ qs.filterMap (forwarded T c.frame c.cp.deviceId)
        received := s.received ++ qs.filterMap (delivered T c.frame c.cp.deviceId) }
    else s
  | .expire r => { s with bridge := cachedNext service appId s.bridge (.expire r) }

end Steps

section StepSpec

variable {T : Topology H} {service : RuleService} {appId : ApplicationId} [DecidableEq H]
  {s : Net H} {c : Copy H}

/-- A hop of a copy in flight. -/
theorem netNext_hop_of_mem (hc : c ∈ s.inFlight) :
    netNext T service appId s (.hop c) =
      { s with
        bridge := cachedNext service appId s.bridge (.frame ⟨c.cp, c.frame.eth⟩)
        inFlight := s.inFlight.erase c ++
          (outPorts T c.cp (cachedOut service appId s.bridge
            (.frame ⟨c.cp, c.frame.eth⟩))).filterMap (forwarded T c.frame c.cp.deviceId)
        received := s.received ++
          (outPorts T c.cp (cachedOut service appId s.bridge
            (.frame ⟨c.cp, c.frame.eth⟩))).filterMap (delivered T c.frame c.cp.deviceId) } :=
  if_pos hc

/-- A hop of a copy that is not in flight does nothing. -/
theorem netNext_hop_of_notMem (hc : c ∉ s.inFlight) : netNext T service appId s (.hop c) = s :=
  if_neg hc

theorem inFlight_hop (hc : c ∈ s.inFlight) :
    (netNext T service appId s (.hop c)).inFlight =
      s.inFlight.erase c ++
        (outPorts T c.cp (cachedOut service appId s.bridge (.frame ⟨c.cp, c.frame.eth⟩))).filterMap
          (forwarded T c.frame c.cp.deviceId) := by
  rw [netNext_hop_of_mem hc]

theorem received_hop (hc : c ∈ s.inFlight) :
    (netNext T service appId s (.hop c)).received =
      s.received ++
        (outPorts T c.cp (cachedOut service appId s.bridge (.frame ⟨c.cp, c.frame.eth⟩))).filterMap
          (delivered T c.frame c.cp.deviceId) := by
  rw [netNext_hop_of_mem hc]

theorem bridge_hop (hc : c ∈ s.inFlight) :
    (netNext T service appId s (.hop c)).bridge =
      cachedNext service appId s.bridge (.frame ⟨c.cp, c.frame.eth⟩) := by
  rw [netNext_hop_of_mem hc]

/-- Only hosts inject frames. -/
theorem injected_hop (s : Net H) (c : Copy H) :
    (netNext T service appId s (.hop c)).injected = s.injected := by
  by_cases hc : c ∈ s.inFlight
  · rw [netNext_hop_of_mem hc]
  · rw [netNext_hop_of_notMem hc]

variable (T service appId s) in
/-- **What a step does to tables and rules**: nothing, a packet-in of a copy that hits no rule, or
the expiry of a rule. -/
theorem bridge_netNext_cases (e : NetEvent H) :
    (netNext T service appId s e).bridge = s.bridge ∧ (∀ r, e ≠ .expire r) ∨
      (∃ c ∈ s.inFlight, e = .hop c ∧ hit s.bridge ⟨c.cp, c.frame.eth⟩ = none ∧
        (netNext T service appId s e).bridge =
          packetIn service appId s.bridge ⟨c.cp, c.frame.eth⟩) ∨
      ∃ r, e = .expire r ∧ (netNext T service appId s e).bridge = expire s.bridge r := by
  cases e with
  | expire r => exact Or.inr (Or.inr ⟨r, rfl, rfl⟩)
  | inject h eth =>
    refine Or.inl ⟨?_, by simp⟩
    simp only [netNext]
    split_ifs <;> rfl
  | hop c =>
    by_cases hc : c ∈ s.inFlight
    · cases hr : hit s.bridge ⟨c.cp, c.frame.eth⟩ with
      | some r =>
        refine Or.inl ⟨?_, by simp⟩
        simp only [bridge_hop hc, cachedNext, hr]
      | none =>
        refine Or.inr (Or.inl ⟨c, hc, rfl, hr, ?_⟩)
        simp only [bridge_hop hc, cachedNext, hr]
    · exact Or.inl ⟨by rw [netNext_hop_of_notMem hc], by simp⟩

end StepSpec

/-! ## What is learned is kept -/

section Recorded

variable {T : Topology H} {service : RuleService} {appId : ApplicationId} [DecidableEq H]
  {d : DeviceId} {m : MacAddress}

theorem recorded_netNext {s : Net H} (h : (portOf s.bridge.macAddressTables d m).isSome)
    (e : NetEvent H) :
    (portOf (netNext T service appId s e).bridge.macAddressTables d m).isSome := by
  obtain ⟨hb, -⟩ | ⟨c, -, -, -, hb⟩ | ⟨r, -, hb⟩ :=
    bridge_netNext_cases T service appId s e
  · rwa [hb]
  · rw [hb]
    exact extends_process service appId _ _ d m h
  · rwa [hb]

end Recorded

/-! ## Tables, rules and copies point at the hosts -/

section Invariant

variable (T : Topology H)

/-- A recorded port leads towards the host that owns the address. -/
def TablesPoint (t : MacAddressTables) : Prop :=
  ∀ d m q, portOf t d m = some q → ∃ h, T.mac h = m ∧ T.Towards ⟨d, q⟩ h

/-- The rule outputs to the port towards the host that owns its destination, and both its
addresses are recorded in `t`. -/
def RulePoints (appId : ApplicationId) (t : MacAddressTables) (r : FlowRule) : Prop :=
  ∃ m n q h, r = pairRule appId r.deviceId m n q ∧ T.mac h = n ∧ T.Towards ⟨r.deviceId, q⟩ h ∧
    (portOf t r.deviceId m).isSome ∧ (portOf t r.deviceId n).isSome

/-- Every live rule points at a host, with both its addresses recorded in the tables. -/
def RulesPoint (appId : ApplicationId) (s : State) : Prop :=
  ∀ r ∈ s.liveRules, RulePoints T appId s.macAddressTables r

/-- A copy in flight carries its sender's address, and enters its switch by the port towards
its sender. -/
def CopyLeaves (c : Copy H) : Prop :=
  T.Towards c.cp c.frame.sender ∧ c.cp.deviceId ∈ T.switches ∧
    c.frame.eth.sourceMAC = T.mac c.frame.sender ∧ Handled c.frame.eth

/-- Whatever the tables and the rules hold, every copy moves away from its sender. -/
def CopiesLeave (s : Net H) : Prop :=
  ∀ c ∈ s.inFlight, CopyLeaves T c

structure PointsAtHosts (appId : ApplicationId) (s : Net H) : Prop where
  tables : TablesPoint T s.bridge.macAddressTables
  rules : RulesPoint T appId s.bridge
  copies : CopiesLeave T s

variable {T} {service : RuleService} {appId : ApplicationId}

theorem RulePoints.mono {t t' : MacAddressTables} {r : FlowRule} (hr : RulePoints T appId t r)
    (ht : Extends t t') : RulePoints T appId t' r := by
  obtain ⟨m, n, q, h, hpair, hmac, hto, hm, hn⟩ := hr
  exact ⟨m, n, q, h, hpair, hmac, hto, ht _ _ hm, ht _ _ hn⟩

/-- A hit rule is the rule for the addresses of the frame, which are both recorded. -/
theorem RulesPoint.eq_of_hit {s : State} {pkt : InboundPacket} {r : FlowRule}
    (hs : RulesPoint T appId s) (hr : hit s pkt = some r) :
    ∃ q h, r = pairRule appId pkt.receivedFrom.deviceId pkt.parsed.sourceMAC
        pkt.parsed.destinationMAC q ∧
      T.mac h = pkt.parsed.destinationMAC ∧ T.Towards ⟨pkt.receivedFrom.deviceId, q⟩ h ∧
      (portOf s.macAddressTables pkt.receivedFrom.deviceId pkt.parsed.sourceMAC).isSome ∧
      (portOf s.macAddressTables pkt.receivedFrom.deviceId pkt.parsed.destinationMAC).isSome := by
  obtain ⟨m, n, q, h, hpair, hmac, ht, hm, hn⟩ := hs r (List.mem_of_find?_eq_some hr)
  have hmatch := List.find?_some hr
  simp only [Bool.and_eq_true, decide_eq_true_eq] at hmatch
  rw [hmatch.1] at hpair ht hm hn
  rw [hpair] at hmatch
  obtain ⟨rfl, rfl⟩ := matches_pairSelector.mp hmatch.2
  exact ⟨q, h, hpair, hmac, ht, hm, hn⟩

/-- A hit rule outputs towards the host that owns the destination of the frame. -/
theorem RulesPoint.of_hit {s : State} {pkt : InboundPacket} {r : FlowRule}
    (hs : RulesPoint T appId s) (hr : hit s pkt = some r) :
    ∃ q h, r.treatment.output = some (.port q) ∧ T.mac h = pkt.parsed.destinationMAC ∧
      T.Towards ⟨pkt.receivedFrom.deviceId, q⟩ h := by
  obtain ⟨q, h, rfl, hmac, hto, -⟩ := hs.eq_of_hit hr
  exact ⟨q, h, rfl, hmac, hto⟩

/-- After a call that handles a copy, the tables still point at the hosts: the copy came in on
the port towards its sender. -/
theorem TablesPoint.process {t : MacAddressTables} {c : Copy H} (ht : TablesPoint T t)
    (hc : CopyLeaves T c) : TablesPoint T (process service appId t ⟨c.cp, c.frame.eth⟩).1 := by
  intro d m q hq
  rw [portOf_process service appId t hc.2.2.2] at hq
  split_ifs at hq with hnew
  · obtain ⟨rfl, rfl⟩ := hnew
    rw [← Option.some.inj hq]
    exact ⟨c.frame.sender, hc.2.2.1.symm, hc.1⟩
  · exact ht d m q hq

theorem RulesPoint.packetIn {s : State} {c : Copy H} (hs : RulesPoint T appId s)
    (ht : TablesPoint T s.macAddressTables) (hc : CopyLeaves T c) :
    RulesPoint T appId (packetIn service appId s ⟨c.cp, c.frame.eth⟩) := by
  have hh := hc.2.2.2
  intro r hr
  rcases (mem_packetIn_rules hh).mp hr with ⟨q, hq, rfl⟩ | ⟨hr, -⟩
  · obtain ⟨h, hmac, hto⟩ := ht.process hc _ _ q hq
    refine ⟨_, _, q, h, rfl, hmac, hto, ?_, ?_⟩
    · rw [packetIn_tables]
      exact Option.isSome_of_eq_some (portOf_process_source service appId _ hh)
    · rw [packetIn_tables]
      exact Option.isSome_of_eq_some hq
  · exact (hs r hr).mono (extends_process service appId _ _)

/-- The output of a copy to a port, by a rule or by `process`, is towards the host that owns
its destination. -/
theorem PointsAtHosts.towards_of_out {s : Net H} {c : Copy H} {q : PortNumber}
    (hs : PointsAtHosts T appId s) (hc : CopyLeaves T c)
    (hout : cachedOut service appId s.bridge (.frame ⟨c.cp, c.frame.eth⟩) = some (.port q)) :
    ∃ h, T.mac h = c.frame.eth.destinationMAC ∧ T.Towards ⟨c.cp.deviceId, q⟩ h := by
  unfold cachedOut at hout
  cases hr : hit s.bridge ⟨c.cp, c.frame.eth⟩ with
  | some r =>
    simp only [hr] at hout
    obtain ⟨q', h, hq', hmac, hto⟩ := hs.rules.of_hit hr
    rw [hout, Option.some.injEq, OutPort.port.injEq] at hq'
    subst hq'
    exact ⟨h, hmac, hto⟩
  | none =>
    simp only [hr] at hout
    rw [(process_reaction service appId _ hc.2.2.2).1, Option.some.injEq] at hout
    have htab : TablesPoint T (Bridge.process service appId s.bridge.macAddressTables
        ⟨c.cp, c.frame.eth⟩).1 := hs.tables.process hc
    refine htab _ _ q ?_
    cases hp : portOf (Bridge.process service appId s.bridge.macAddressTables
        ⟨c.cp, c.frame.eth⟩).1 c.cp.deviceId c.frame.eth.destinationMAC with
    | none => simp [hp, outputTo] at hout
    | some p =>
      rw [hp, outputTo, OutPort.port.injEq] at hout
      rw [hout]

/-- A copy never leaves a switch by the port it came in on. -/
theorem ne_of_mem_outPorts {cp : ConnectPoint} {o : Option OutPort} {q : PortNumber}
    (hq : q ∈ outPorts T cp o) : q ≠ cp.port := by
  rcases o with - | (- | p)
  · simp [outPorts] at hq
  · simpa [outPorts] using (List.mem_filter.mp hq).2
  · simp only [outPorts] at hq
    split_ifs at hq with hp
    · simp at hq
    · rwa [List.mem_singleton.mp hq]

/-- A forwarded copy still moves away from its sender. -/
theorem CopyLeaves.forwarded {c c' : Copy H} {q : PortNumber} (hc : CopyLeaves T c)
    (hq : q ≠ c.cp.port) (hf : forwarded T c.frame c.cp.deviceId q = some c') :
    CopyLeaves T c' := by
  unfold Bridge.forwarded at hf
  split at hf
  · rename_i cp hl
    obtain rfl := Option.some.inj hf
    -- the link it leaves by does not lead back to the sender, so its other end does
    refine ⟨(Topology.towards_link_iff hl).mpr fun hto => hq (hto.unique hc.1),
      T.link_mem _ _ (T.link_symm _ _ hl), hc.2.2⟩
  · simp at hf

theorem pointsAtHosts_init : PointsAtHosts T appId (Net.init : Net H) where
  tables d m q hq := by simp [Net.init, State.init] at hq
  rules r hr := by simp [Net.init, State.init] at hr
  copies c hc := by simp [Net.init] at hc

variable [DecidableEq H]

/-- Every step keeps the copies moving away from their senders: a new copy enters by the port of
its sender, and a copy is never put out of the port it came in on. -/
theorem CopiesLeave.netNext {s : Net H} (hs : CopiesLeave T s) (e : NetEvent H) :
    CopiesLeave T (netNext T service appId s e) := by
  cases e with
  | expire r => exact hs
  | inject h eth =>
    simp only [Bridge.netNext]
    split_ifs with hok
    · rintro c (- | ⟨-, hc⟩)
      · exact ⟨Or.inl rfl, T.hostPort_mem h, hok.1, hok.2⟩
      · exact hs c hc
    · exact hs
  | hop c =>
    by_cases hmem : c ∈ s.inFlight
    · intro c' hc'
      rw [inFlight_hop hmem] at hc'
      rcases List.mem_append.mp hc' with hc' | hc'
      · exact hs c' (List.mem_of_mem_erase hc')
      · obtain ⟨q, hq, hf⟩ := List.mem_filterMap.mp hc'
        exact (hs c hmem).forwarded (ne_of_mem_outPorts hq) hf
    · rwa [netNext_hop_of_notMem hmem]

/-- Tables that point at the hosts keep doing so, whatever the rules. -/
theorem TablesPoint.netNext {s : Net H} (ht : TablesPoint T s.bridge.macAddressTables)
    (hc : CopiesLeave T s) (e : NetEvent H) :
    TablesPoint T (netNext T service appId s e).bridge.macAddressTables := by
  obtain ⟨h, -⟩ | ⟨c, hmem, -, -, h⟩ | ⟨r, -, h⟩ := bridge_netNext_cases T service appId s e
  · rwa [h]
  · rw [h, packetIn_tables]
    exact ht.process (hc c hmem)
  · rwa [h]

/-- **Every step keeps copies, tables and rules pointing at the hosts.** -/
theorem PointsAtHosts.netNext {s : Net H} (hs : PointsAtHosts T appId s) (e : NetEvent H) :
    PointsAtHosts T appId (netNext T service appId s e) := by
  refine ⟨hs.tables.netNext hs.copies e, ?_, hs.copies.netNext e⟩
  obtain ⟨h, -⟩ | ⟨c, hmem, -, -, h⟩ | ⟨r, -, h⟩ := bridge_netNext_cases T service appId s e
  · rw [h]
    exact hs.rules
  · rw [h]
    exact hs.rules.packetIn hs.tables (hs.copies c hmem)
  · rw [h]
    exact fun r' hr' => hs.rules r' (List.mem_of_mem_filter hr')

theorem pointsAtHosts_run (es : List (NetEvent H)) :
    PointsAtHosts T appId (run (netNext T service appId) Net.init es) :=
  run_invariant (fun _ e hs => hs.netNext e) pointsAtHosts_init es

end Invariant

/-- **Tables and rules point at the hosts.** In every state that a network of bridges
reaches, on every tree of switches and by every sequence of injections, hops and expiries: a
recorded address belongs to a host, and the recorded port is the one towards that host; and a
live rule outputs to the port towards the host that owns its destination, with both its
addresses recorded on the switch. -/
theorem tables_and_rules_point_at_hosts [DecidableEq H] (T : Topology H) (service : RuleService)
    (appId : ApplicationId) (es : List (NetEvent H)) :
    TablesPoint T (run (netNext T service appId) Net.init es).bridge.macAddressTables ∧
      RulesPoint T appId (run (netNext T service appId) Net.init es).bridge :=
  ⟨(pointsAtHosts_run es).tables, (pointsAtHosts_run es).rules⟩

end Bridge
