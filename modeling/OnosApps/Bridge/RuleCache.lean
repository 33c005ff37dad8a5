import OnosApps.Bridge.Process
import OnosApps.Runs.Run

/-!
# The learning bridge: the rules of a switch as a cache

A frame that hits a live rule is forwarded by the switch and never reaches `process`, so the
controller does not learn from it. On one switch, as long as every address keeps its port,
this makes no difference: the switch with its rules gives the same outputs, and leaves the
same tables, as a switch that sends every frame to `process`.

## Main definitions

* `cachedNext`, `cachedOut`: a frame takes the live rule it hits, or goes to `process`
* `plainNext`, `plainOut`: every frame goes to `process`
* `Cached`: the relation between the two systems

## Main results

* `process_tables_of_recorded`: a call that sees a recorded address again changes no table
* `cached_simulation`: the relation is kept by hits, misses and expiries
* `rule_cache_transparent`: the two systems give the same outputs and the same tables
-/

namespace Bridge

open Onos Runs

/-- What happens at a switch: a frame arrives, or a live rule expires. -/
inductive Event where
  | frame (pkt : InboundPacket)
  | expire (r : FlowRule)

section Systems

variable (service : RuleService) (appId : ApplicationId)

/-- A frame that hits a live rule leaves the controller alone. -/
def cachedNext (s : State) : Event → State
  | .frame pkt =>
    match hit s pkt with
    | some _ => s
    | none => packetIn service appId s pkt
  | .expire r => expire s r

/-- A frame that hits a live rule is output by the rule. -/
def cachedOut (s : State) : Event → Option OutPort
  | .frame pkt =>
    match hit s pkt with
    | some r => r.treatment.output
    | none => (process service appId s.macAddressTables pkt).2.send
  | .expire _ => none

/-- Every frame goes to the controller. -/
def plainNext (t : MacAddressTables) : Event → MacAddressTables
  | .frame pkt => (process service appId t pkt).1
  | .expire _ => t

/-- Every frame is output by the controller. -/
def plainOut (t : MacAddressTables) : Event → Option OutPort
  | .frame pkt => (process service appId t pkt).2.send
  | .expire _ => none

end Systems

/-! ## A call that learns nothing new -/

/-- A call that sees a source address on the port recorded for it changes no table. -/
theorem process_tables_of_recorded (service : RuleService) (appId : ApplicationId)
    {t : MacAddressTables} {pkt : InboundPacket} (h : Handled pkt.parsed)
    (hrec : portOf t pkt.receivedFrom.deviceId pkt.parsed.sourceMAC = some pkt.receivedFrom.port) :
    (process service appId t pkt).1 = t := by
  obtain ⟨table, htable, hport⟩ := Option.bind_eq_some_iff.mp hrec
  have hput : table.put pkt.parsed.sourceMAC pkt.receivedFrom.port = table := by
    apply Finmap.ext_lookup
    intro m
    rw [ConcurrentMap.lookup_put]
    split_ifs with hm
    · rw [hm, hport]
    · rfl
  -- the table of the switch exists, so `putIfAbsent` does nothing either
  rw [process_tables service appId t h]
  apply Finmap.ext_lookup
  intro d
  rw [ConcurrentMap.lookup_put, ConcurrentMap.lookup_putIfAbsent, if_pos rfl, htable,
    Option.getD_some, Option.getD_some, hput, ConcurrentMap.lookup_putIfAbsent]
  split_ifs with hd
  · rw [hd, htable]
  · rfl

/-! ## The simulation -/

section Simulation

variable (service : RuleService) (appId : ApplicationId) (d : DeviceId)
  (home : MacAddress → PortNumber)

/-- The frames of one switch `d`, of the types the application handles, in which every source
address `m` arrives on the port `home m`. -/
def AtHome : Event → Prop
  | .frame pkt => Handled pkt.parsed ∧ pkt.receivedFrom = ⟨d, home pkt.parsed.sourceMAC⟩
  | .expire _ => True

instance : DecidablePred (AtHome d home)
  | .frame _ => inferInstanceAs (Decidable (_ ∧ _))
  | .expire _ => .isTrue trivial

/-- Both systems have the same tables, addresses are recorded on their own port, and a live
rule was installed for a recorded source and outputs to the recorded port of its
destination. -/
structure Cached (s : State) (t : MacAddressTables) : Prop where
  tables : s.macAddressTables = t
  recorded : ∀ m p, portOf t d m = some p → p = home m
  rules : ∀ r ∈ s.liveRules, ∃ m n, r = pairRule appId d m n (home n) ∧
    portOf t d m = some (home m) ∧ portOf t d n = some (home n)

variable {service appId d home}

/-- A hit rule is a rule for the addresses of the frame. -/
theorem Cached.of_hit {s : State} {t : MacAddressTables} {pkt : InboundPacket} {r : FlowRule}
    (hc : Cached appId d home s t) (hr : hit s pkt = some r) :
    r = pairRule appId d pkt.parsed.sourceMAC pkt.parsed.destinationMAC
        (home pkt.parsed.destinationMAC) ∧
      portOf t d pkt.parsed.sourceMAC = some (home pkt.parsed.sourceMAC) ∧
      portOf t d pkt.parsed.destinationMAC = some (home pkt.parsed.destinationMAC) := by
  -- the rule matches the frame, so its pair of addresses is that of the frame
  obtain ⟨m, n, rfl, hm, hn⟩ := hc.rules r (List.mem_of_find?_eq_some hr)
  have hmatch := List.find?_some hr
  simp only [Bool.and_eq_true, decide_eq_true_eq] at hmatch
  obtain ⟨rfl, rfl⟩ := matches_pairSelector.mp hmatch.2
  exact ⟨rfl, hm, hn⟩

/-- A miss keeps the relation: both systems call `process`. -/
theorem Cached.packetIn {s : State} {t : MacAddressTables} {pkt : InboundPacket}
    (hc : Cached appId d home s t) (hp : AtHome d home (.frame pkt)) :
    Cached appId d home (packetIn service appId s pkt) (process service appId t pkt).1 := by
  obtain ⟨hh, hcp⟩ := hp
  have hport : ∀ m, portOf (process service appId t pkt).1 d m =
      if m = pkt.parsed.sourceMAC then some (home m) else portOf t d m := by
    intro m
    rw [portOf_process service appId t hh, hcp]
    by_cases hm : m = pkt.parsed.sourceMAC <;> simp [hm]
  -- an address that is recorded stays recorded, on its own port
  have hkeep : ∀ m, portOf t d m = some (home m) →
      portOf (process service appId t pkt).1 d m = some (home m) := by
    intro m hm
    rw [hport, hm, ite_self]
  have hrec : ∀ m p, portOf (process service appId t pkt).1 d m = some p → p = home m := by
    intro m p hm
    rw [hport] at hm
    split_ifs at hm
    · exact (Option.some.inj hm).symm
    · exact hc.recorded m p hm
  refine ⟨by rw [packetIn_tables, hc.tables], hrec, fun r hr => ?_⟩
  rw [mem_packetIn_rules hh, hc.tables, hcp] at hr
  rcases hr with ⟨p, hdst, rfl⟩ | ⟨hr, -⟩
  -- the rule just installed, and the rules that were there
  · obtain rfl := hrec _ p hdst
    refine ⟨_, _, rfl, ?_, hdst⟩
    rw [hport, if_pos rfl]
  · obtain ⟨m, n, rfl, hm, hn⟩ := hc.rules r hr
    exact ⟨m, n, rfl, hkeep m hm, hkeep n hn⟩

/-- **One event keeps the relation and is output alike.** -/
theorem cached_simulation (s : State) (t : MacAddressTables) (e : Event)
    (he : AtHome d home e) (hc : Cached appId d home s t) :
    Cached appId d home (cachedNext service appId s e) (plainNext service appId t e) ∧
      cachedOut service appId s e = plainOut service appId t e := by
  cases e with
  | expire r =>
    refine ⟨⟨hc.tables, hc.recorded, fun r' hr' => hc.rules r' ?_⟩, rfl⟩
    exact List.mem_of_mem_filter hr'
  | frame pkt =>
    cases hr : hit s pkt with
    | none =>
      simp only [cachedNext, cachedOut, plainNext, plainOut, hr, hc.tables]
      exact ⟨hc.packetIn he, trivial⟩
    | some r =>
      -- the controller would record the source again and look up the port of the rule
      obtain ⟨hh, hcp⟩ := he
      obtain ⟨rfl, hsrc, hdst⟩ := hc.of_hit hr
      have hsame : (process service appId t pkt).1 = t :=
        process_tables_of_recorded service appId hh (by rw [hcp]; exact hsrc)
      simp only [cachedNext, cachedOut, plainNext, plainOut, hr]
      rw [(process_reaction service appId t hh).1, hsame, hcp]
      refine ⟨hc, ?_⟩
      rw [hdst]
      rfl

end Simulation

/-- **The rules of a switch are a transparent cache.** For every sequence of frames in which
each source address arrives on one port, and every pattern of expiries, the switch with its
rules gives the outputs, and ends with the tables, of the switch that sends every frame to
`process`. -/
theorem rule_cache_transparent (service : RuleService) (appId : ApplicationId) (d : DeviceId)
    (home : MacAddress → PortNumber) (es : List Event) (hes : ∀ e ∈ es, AtHome d home e) :
    outputs (cachedNext service appId) (cachedOut service appId) State.init es =
        outputs (plainNext service appId) (plainOut service appId) ∅ es ∧
      (run (cachedNext service appId) State.init es).macAddressTables =
        run (plainNext service appId) ∅ es := by
  have hinit : Cached appId d home State.init ∅ :=
    ⟨rfl, fun m p h => by simp at h, fun r hr => by simp [State.init] at hr⟩
  obtain ⟨hc, hout⟩ := outputs_eq_of_simulation cached_simulation hinit hes
  exact ⟨hout, hc.tables⟩

/-- The hypothesis of `rule_cache_transparent` is met by an exchange in which the second
frame installs a rule that the third frame hits. -/
theorem rule_cache_transparent_exchange :
    let es : List Event :=
      [.frame ⟨⟨⟨1⟩, ⟨1⟩⟩, ⟨⟨1⟩, ⟨2⟩, .arp ⟨ARP.OP_REQUEST, ⟨1⟩, ⟨1⟩, ⟨0⟩, ⟨2⟩⟩⟩⟩,
        .frame ⟨⟨⟨1⟩, ⟨2⟩⟩, ⟨⟨2⟩, ⟨1⟩, .arp ⟨ARP.OP_REPLY, ⟨2⟩, ⟨2⟩, ⟨1⟩, ⟨1⟩⟩⟩⟩,
        .frame ⟨⟨⟨1⟩, ⟨2⟩⟩, ⟨⟨2⟩, ⟨1⟩, .arp ⟨ARP.OP_REPLY, ⟨2⟩, ⟨2⟩, ⟨1⟩, ⟨1⟩⟩⟩⟩]
    outputs (plainNext .flowRuleService ⟨"nctu.winlab.bridge"⟩)
        (plainOut .flowRuleService ⟨"nctu.winlab.bridge"⟩) ∅ es =
        [some .flood, some (.port ⟨1⟩), some (.port ⟨1⟩)] ∧
      outputs (cachedNext .flowRuleService ⟨"nctu.winlab.bridge"⟩)
          (cachedOut .flowRuleService ⟨"nctu.winlab.bridge"⟩) State.init es =
        outputs (plainNext .flowRuleService ⟨"nctu.winlab.bridge"⟩)
          (plainOut .flowRuleService ⟨"nctu.winlab.bridge"⟩) ∅ es ∧
      hit (run (cachedNext .flowRuleService ⟨"nctu.winlab.bridge"⟩) State.init (es.take 2))
          ⟨⟨⟨1⟩, ⟨2⟩⟩, ⟨⟨2⟩, ⟨1⟩, .arp ⟨ARP.OP_REPLY, ⟨2⟩, ⟨2⟩, ⟨1⟩, ⟨1⟩⟩⟩⟩ =
        some (pairRule ⟨"nctu.winlab.bridge"⟩ ⟨1⟩ ⟨2⟩ ⟨1⟩ ⟨1⟩) := by
  intro es
  exact ⟨by decide, (rule_cache_transparent _ _ ⟨1⟩ (fun m => ⟨m.toLong.toNat⟩) es (by decide)).1,
    by decide⟩

end Bridge
