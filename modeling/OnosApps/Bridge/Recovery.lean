import OnosApps.Bridge.Visits

/-!
# A network of learning bridges recovers after hosts have moved

When hosts move, the tables and the rules of the application point at the old places, and
`process` never takes a rule back. The network recovers all the same. A frame to an address that
no host owns, such as a broadcast, is flooded whatever the tables hold, so it enters every switch
and corrects the entry of its sender there. When every host has sent such a frame and the rules
that were live then have expired, tables and rules point at the hosts again, and the frames sent
from then on are delivered exactly once.

## Main definitions

* `SpeaksOfHosts T b`: tables and rules are about addresses of hosts; the ports may be wrong
* `Located T d A s`: the switch `d` records the host `A` at the port towards it
* `Announces T f s`: every switch has its entry for the sender of `f` right, or a copy of `f`
  has it ahead

## Main results

* `Announces.netNext`, `announces_run`: a broadcast corrects the entry of its sender
* `tablesPoint_of_located`, `rules_point_or_old`: what is right again after the broadcasts, and
  after the expiries
* `once_for_run`: from a state that points at the hosts, later frames are delivered once
* `delivery_recovers`: the recovery from arbitrary ports
-/

namespace Bridge

open Onos Runs

variable {H : Type}

/-- The tables are of switches of the tree, and tables and rules are about addresses of its
hosts. What ports they name is left open. -/
structure SpeaksOfHosts (T : Topology H) (b : State) : Prop where
  tables : ∀ d m q, portOf b.macAddressTables d m = some q → d ∈ T.switches ∧ ∃ h, T.mac h = m
  rules : ∀ r ∈ b.liveRules, ∃ h, r.selector.ethDst = some (T.mac h)

/-- The switch `d` records the host `A` at the port towards it. -/
def Located (T : Topology H) (d : DeviceId) (A : H) (s : Net H) : Prop :=
  ∃ q, portOf s.bridge.macAddressTables d (T.mac A) = some q ∧ T.Towards ⟨d, q⟩ A

/-- Every switch has its entry for the sender of `f` right, or a copy of `f` has it ahead. -/
def Announces (T : Topology H) (f : Frame H) (s : Net H) : Prop :=
  f ∈ s.injected → ∀ d ∈ T.switches, Located T d f.sender s ∨ Awaits T d f s

/-! ## What an announcement does -/

section Announce

variable {T : Topology H} {service : RuleService} {appId : ApplicationId} {s : Net H} {c : Copy H}

variable (service appId) in
theorem SpeaksOfHosts.packetIn {b : State} (hb : SpeaksOfHosts T b) (hc : CopyLeaves T c) :
    SpeaksOfHosts T (packetIn service appId b ⟨c.cp, c.frame.eth⟩) := by
  obtain ⟨-, hsw, hsrc, hh⟩ := hc
  have htables : ∀ d m q, portOf (process service appId b.macAddressTables
      ⟨c.cp, c.frame.eth⟩).1 d m = some q → d ∈ T.switches ∧ ∃ h, T.mac h = m := by
    intro d m q hq
    rw [portOf_process service appId _ hh] at hq
    split_ifs at hq with hnew
    · obtain ⟨rfl, rfl⟩ := hnew
      exact ⟨hsw, _, hsrc.symm⟩
    · exact hb.tables d m q hq
  refine ⟨htables, fun r hr => ?_⟩
  rcases (mem_packetIn_rules hh).mp hr with ⟨q, hq, rfl⟩ | ⟨hr, -⟩
  · -- a rule is installed for a recorded destination
    obtain ⟨-, h, hmac⟩ := htables _ _ q hq
    exact ⟨h, by rw [hmac]; rfl⟩
  · exact hb.rules r hr

/-- A frame to an address that no host owns hits no rule. -/
theorem SpeaksOfHosts.hit_eq_none {b : State} (hb : SpeaksOfHosts T b) (pkt : InboundPacket)
    (hun : ∀ h, T.mac h ≠ pkt.parsed.destinationMAC) : hit b pkt = none := by
  rw [hit, List.find?_eq_none]
  intro r hr hmatch
  obtain ⟨h, hdst⟩ := hb.rules r hr
  simp only [TrafficSelector.matches, hdst, Option.all_some, Bool.and_eq_true, beq_iff_eq] at hmatch
  exact hun h hmatch.2.1.1.1.1.1.2

/-- A frame to an address that no host owns is flooded. -/
theorem SpeaksOfHosts.cachedOut_eq_flood (hb : SpeaksOfHosts T s.bridge) (hc : CopyLeaves T c)
    (hun : ∀ h, T.mac h ≠ c.frame.eth.destinationMAC) :
    cachedOut service appId s.bridge (.frame ⟨c.cp, c.frame.eth⟩) = some .flood := by
  have hnone : portOf (process service appId s.bridge.macAddressTables ⟨c.cp, c.frame.eth⟩).1
      c.cp.deviceId c.frame.eth.destinationMAC = none := by
    cases hp : portOf (process service appId s.bridge.macAddressTables ⟨c.cp, c.frame.eth⟩).1
        c.cp.deviceId c.frame.eth.destinationMAC with
    | none => rfl
    | some p =>
      obtain ⟨-, h, hmac⟩ := (hb.packetIn service appId hc).tables _ _ p hp
      exact absurd hmac (hun h)
  simp only [cachedOut, hb.hit_eq_none ⟨c.cp, c.frame.eth⟩ hun]
  rw [(process_reaction service appId _ hc.2.2.2).1, hnone]
  rfl

variable [DecidableEq H]

theorem SpeaksOfHosts.netNext (hb : SpeaksOfHosts T s.bridge) (hc : CopiesLeave T s)
    (e : NetEvent H) : SpeaksOfHosts T (netNext T service appId s e).bridge := by
  obtain ⟨h, -⟩ | ⟨c, hmem, -, -, h⟩ | ⟨r, -, h⟩ :=
    bridge_netNext_cases T service appId s e
  · rwa [h]
  · rw [h]
    exact hb.packetIn service appId (hc c hmem)
  · rw [h]
    exact ⟨hb.tables, fun r' hr' => hb.rules r' (List.mem_of_mem_filter hr')⟩

/-- An entry that is right stays right: only its own host can write it, from where it is. -/
theorem Located.netNext {d : DeviceId} {A : H} (hs : Located T d A s) (hc : CopiesLeave T s)
    (e : NetEvent H) : Located T d A (netNext T service appId s e) := by
  unfold Located
  obtain ⟨q, hq, hto⟩ := hs
  obtain ⟨h, -⟩ | ⟨c, hmem, -, -, h⟩ | ⟨r, -, h⟩ :=
    bridge_netNext_cases T service appId s e
  · rw [h]
    exact ⟨q, hq, hto⟩
  · rw [h, packetIn_tables, portOf_process service appId _ (hc c hmem).2.2.2]
    split_ifs with hnew
    · obtain ⟨rfl, hmac⟩ := hnew
      rw [show A = c.frame.sender from T.mac_injective (hmac.trans (hc c hmem).2.2.1)]
      exact ⟨_, rfl, (hc c hmem).1⟩
    · exact ⟨q, hq, hto⟩
  · rw [h]
    exact ⟨q, hq, hto⟩

/-- A frame that hits no rule has its sender's entry right on the switch it enters. -/
theorem located_hop (hc : CopiesLeave T s) (hmem : c ∈ s.inFlight)
    (hmiss : hit s.bridge ⟨c.cp, c.frame.eth⟩ = none) :
    Located T c.cp.deviceId c.frame.sender (netNext T service appId s (.hop c)) := by
  obtain ⟨hto, -, hsrc, hh⟩ := hc c hmem
  refine ⟨c.cp.port, ?_, hto⟩
  simp only [bridge_hop hmem, cachedNext, hmiss, packetIn_tables]
  rw [← hsrc]
  exact portOf_process_source service appId _ hh

/-- **Every step keeps it**: a broadcast is flooded, so it turns away from no switch, and it enters
a switch only to correct its entry. -/
theorem Announces.netNext {f : Frame H} (hs : Announces T f s) (hb : SpeaksOfHosts T s.bridge)
    (hc : CopiesLeave T s) (hun : ∀ h, T.mac h ≠ f.eth.destinationMAC) (e : NetEvent H) :
    Announces T f (netNext T service appId s e) := by
  intro hf d hd
  by_cases hold : f ∈ s.injected
  · rcases hs hold d hd with hloc | hawaits
    · exact Or.inl (hloc.netNext hc e)
    · rcases hawaits.netNext service appId hd e with hawaits | ⟨c, hmem, rfl, rfl, hl, haway⟩
      · exact Or.inr hawaits
      · have hmiss := hb.hit_eq_none ⟨c.cp, c.frame.eth⟩ hun
        by_cases he : c.cp.deviceId = d
        · subst he
          exact Or.inl (located_hop hc hmem hmiss)
        · -- the flood takes the port that leads to `d`
          obtain ⟨q, hq⟩ := Topology.exists_leads (hc c hmem).2.1 hd he
          refine absurd hq (haway q ?_)
          rw [hb.cachedOut_eq_flood (hc c hmem) hun]
          refine List.mem_filter.mpr ⟨hq.mem_ports, ?_⟩
          rw [decide_eq_true_eq]
          rintro rfl
          exact hl hq
  · exact Or.inr (awaits_of_injected hf hold d)

variable (service appId) in
theorem speaksOfHosts_run {b : State} (hb : SpeaksOfHosts T b) (es : List (NetEvent H)) :
    SpeaksOfHosts T (run (Bridge.netNext T service appId) (Net.start b) es).bridge ∧
      CopiesLeave T (run (Bridge.netNext T service appId) (Net.start b) es) :=
  run_invariant (P := fun s => SpeaksOfHosts T s.bridge ∧ CopiesLeave T s)
    (fun _ e ⟨hb, hc⟩ => ⟨hb.netNext hc e, hc.netNext e⟩) ⟨hb, copiesLeave_start b⟩ es

variable (service appId) in
theorem announces_run {b : State} (hb : SpeaksOfHosts T b) {f : Frame H}
    (hun : ∀ h, T.mac h ≠ f.eth.destinationMAC) (es : List (NetEvent H)) :
    Announces T f (run (Bridge.netNext T service appId) (Net.start b) es) := by
  induction es using List.reverseRecOn with
  | nil => exact fun hf => by simp [Net.start] at hf
  | append_singleton es e ih =>
    obtain ⟨hb', hc'⟩ := speaksOfHosts_run service appId hb es
    rw [run_snoc]
    exact ih.netNext hb' hc' hun e

omit [DecidableEq H] in
/-- The tables point at the hosts when every switch has the entry of every host right. -/
theorem tablesPoint_of_located (hb : SpeaksOfHosts T s.bridge)
    (hloc : ∀ h, ∀ d ∈ T.switches, Located T d h s) : TablesPoint T s.bridge.macAddressTables := by
  intro d m q hq
  obtain ⟨hd, h, rfl⟩ := hb.tables d m q hq
  obtain ⟨q', hq', hto⟩ := hloc h d hd
  rw [hq, Option.some.injEq] at hq'
  exact ⟨h, rfl, hq' ▸ hto⟩

end Announce

/-! ## What becomes of the rules -/

section Rules

variable {T : Topology H} {service : RuleService} {appId : ApplicationId} {s : Net H}
  [DecidableEq H]

theorem RulePoints.netNext {r : FlowRule} (hr : RulePoints T appId s.bridge.macAddressTables r)
    (e : NetEvent H) :
    RulePoints T appId (netNext T service appId s e).bridge.macAddressTables r :=
  hr.mono fun _ _ hm => recorded_netNext hm e

/-- **Where a live rule comes from**: the step has installed it, towards a host, or it was live
before and has not expired. -/
theorem rulePoints_or_mem (ht : TablesPoint T s.bridge.macAddressTables) (hc : CopiesLeave T s)
    {e : NetEvent H} {r : FlowRule} (hr : r ∈ (netNext T service appId s e).bridge.liveRules) :
    RulePoints T appId (netNext T service appId s e).bridge.macAddressTables r ∨
      r ∈ s.bridge.liveRules ∧ e ≠ .expire r := by
  obtain ⟨h, hne⟩ | ⟨c, hmem, rfl, -, h⟩ | ⟨r', rfl, h⟩ := bridge_netNext_cases T service appId s e
  · rw [h] at hr
    exact Or.inr ⟨hr, hne r⟩
  · rw [h] at hr ⊢
    rcases (mem_packetIn_rules (hc c hmem).2.2.2).mp hr with hnew | ⟨hr, -⟩
    · -- a new rule is as good as the tables: it would be installed without any rule there too
      have hempty : RulesPoint T appId ⟨s.bridge.macAddressTables, []⟩ :=
        fun r hr => by simp at hr
      exact Or.inl (hempty.packetIn ht (hc c hmem) r
        ((mem_packetIn_rules (hc c hmem).2.2.2).mpr (Or.inl hnew)))
    · exact Or.inr ⟨hr, by simp⟩
  · rw [h] at hr
    obtain ⟨hr, hne⟩ := List.mem_filter.mp hr
    refine Or.inr ⟨hr, ?_⟩
    rw [ne_eq, NetEvent.expire.injEq]
    exact fun heq => (of_decide_eq_true hne) heq.symm

variable (service appId) in
/-- **Only old rules are wrong**: from a state in which the tables point at the hosts, every rule
that does not is one that was live there and has not expired since. -/
theorem rules_point_or_old (ht : TablesPoint T s.bridge.macAddressTables) (hc : CopiesLeave T s)
    (es : List (NetEvent H)) :
    TablesPoint T (run (Bridge.netNext T service appId) s es).bridge.macAddressTables ∧
      CopiesLeave T (run (Bridge.netNext T service appId) s es) ∧
      ∀ r ∈ (run (Bridge.netNext T service appId) s es).bridge.liveRules,
        RulePoints T appId
            (run (Bridge.netNext T service appId) s es).bridge.macAddressTables r ∨
          r ∈ s.bridge.liveRules ∧ .expire r ∉ es := by
  induction es using List.reverseRecOn with
  | nil => exact ⟨ht, hc, fun r hr => Or.inr ⟨hr, by simp⟩⟩
  | append_singleton es e ih =>
    obtain ⟨ht', hc', hrules⟩ := ih
    rw [run_snoc]
    refine ⟨ht'.netNext hc' e, hc'.netNext e, fun r hr => ?_⟩
    rcases rulePoints_or_mem ht' hc' hr with hnew | ⟨hr, hne⟩
    · exact Or.inl hnew
    · rcases hrules r hr with hgood | ⟨hold, hlive⟩
      · exact Or.inl (hgood.netNext e)
      · refine Or.inr ⟨hold, ?_⟩
        rw [List.mem_append, List.mem_singleton, not_or]
        exact ⟨hlive, fun heq => hne heq.symm⟩

end Rules

/-! ## Delivery from a state that points at the hosts -/

section Once

variable {T : Topology H} {service : RuleService} {appId : ApplicationId} {s : Net H}
  [DecidableEq H]

variable (service) in
/-- **From a state that points at the hosts** on, every frame that is injected is delivered
exactly once to the hosts it is for. -/
theorem once_for_run (hp : PointsAtHosts T appId s) (hn : Numbered s) {f : Frame H}
    (hnew : f ∉ s.injected) (es : List (NetEvent H)) :
    PointsAtHosts T appId (run (Bridge.netNext T service appId) s es) ∧
      OnceFor T f (run (Bridge.netNext T service appId) s es) := by
  have hstep : ∀ (s : Net H) (e : NetEvent H),
      PointsAtHosts T appId s ∧ Numbered s ∧ OnceFor T f s →
      PointsAtHosts T appId (Bridge.netNext T service appId s e) ∧
        Numbered (Bridge.netNext T service appId s e) ∧
        OnceFor T f (Bridge.netNext T service appId s e) :=
    fun s e ⟨hp, hn, hs⟩ => ⟨hp.netNext e, hn.netNext e, hs.netNext hp hn e⟩
  obtain ⟨hp', -, hs'⟩ := run_invariant hstep ⟨hp, hn, fun hf => absurd hf hnew⟩ es
  exact ⟨hp', hs'⟩

end Once

/-- **Delivery recovers.** Start from tables and rules that are about addresses of hosts, but
name arbitrary ports. Let every host have sent a frame to an address that no host owns, with no
copy of it left in flight, and let every rule that is live then expire later on. From then on
tables and rules point at the hosts, and every frame that is injected later is received exactly
once by every host it is for, as soon as no copy of it is in flight. -/
theorem delivery_recovers [DecidableEq H] (T : Topology H) (service : RuleService)
    (appId : ApplicationId) (b : State) (hb : SpeaksOfHosts T b) (es₁ es₂ es₃ : List (NetEvent H))
    (s₁ s₂ s₃ : Net H) (hs₁ : s₁ = run (netNext T service appId) (Net.start b) es₁)
    (hs₂ : s₂ = run (netNext T service appId) s₁ es₂)
    (hs₃ : s₃ = run (netNext T service appId) s₂ es₃)
    (hannounced : ∀ h, ∃ f ∈ s₁.injected, f.sender = h ∧
      (∀ h', T.mac h' ≠ f.eth.destinationMAC) ∧ ∀ c ∈ s₁.inFlight, c.frame ≠ f)
    (hexpired : ∀ r ∈ s₁.bridge.liveRules, .expire r ∈ es₂) :
    PointsAtHosts T appId s₃ ∧
      ∀ f ∈ s₃.injected, f ∉ s₂.injected → (∀ c ∈ s₃.inFlight, c.frame ≠ f) →
        ∀ B, IsFor T f B → s₃.received.count (B, f) = 1 := by
  obtain ⟨hb₁, hc₁⟩ := speaksOfHosts_run service appId hb es₁
  rw [← hs₁] at hb₁ hc₁
  -- the broadcasts have corrected the tables
  have hloc : ∀ h, ∀ d ∈ T.switches, Located T d h s₁ := by
    intro h d hd
    obtain ⟨f, hf, rfl, hun, hdone⟩ := hannounced h
    have hann := announces_run service appId hb hun es₁
    rw [← hs₁] at hann
    exact (hann hf d hd).resolve_right (not_awaits hdone)
  -- and when the old rules are gone, the rules are right too
  obtain ⟨ht₂, hc₂, hrules⟩ := rules_point_or_old service appId
    (tablesPoint_of_located hb₁ hloc) hc₁ es₂
  rw [← hs₂] at ht₂ hc₂ hrules
  have hp₂ : PointsAtHosts T appId s₂ := by
    refine ⟨ht₂, fun r hr => ?_, hc₂⟩
    rcases hrules r hr with hgood | ⟨hold, hlive⟩
    · exact hgood
    · exact absurd (hexpired r hold) hlive
  have hn₂ : Numbered s₂ := by
    rw [hs₂, hs₁, ← run_append]
    exact numbered_run T service appId b (es₁ ++ es₂)
  constructor
  · rw [hs₃]
    exact run_invariant (P := PointsAtHosts T appId) (fun _ e hs => hs.netNext e) hp₂ es₃
  · intro f hf hnew hdone B hB
    obtain ⟨-, honce⟩ := once_for_run service hp₂ hn₂ hnew es₃
    rw [← hs₃] at honce
    have hone := honce hf B hB
    rwa [pending_eq_zero hdone, Nat.zero_add] at hone

/-- The tables of a network in which the second host of two used to be on the first switch, at the
place where the first host is now, with a rule that sends the frames for it there. -/
def movedState : State :=
  ⟨ConcurrentMap.put ∅ ⟨1⟩ (ConcurrentMap.put ∅ ⟨2⟩ ⟨1⟩),
    [pairRule ⟨"nctu.winlab.bridge"⟩ ⟨1⟩ ⟨1⟩ ⟨2⟩ ⟨1⟩]⟩

theorem speaksOfHosts_movedState : SpeaksOfHosts twoSwitches movedState := by
  constructor
  · intro d m q hq
    simp only [movedState, portOf, ConcurrentMap.lookup_put] at hq
    split_ifs at hq with hd
    · subst hd
      rw [Option.bind_some, ConcurrentMap.lookup_put] at hq
      split_ifs at hq with hm
      · subst hm
        exact ⟨by decide, true, rfl⟩
      · simp at hq
    · simp at hq
  · intro r hr
    rw [movedState, List.mem_singleton] at hr
    subst hr
    exact ⟨true, rfl⟩

/-- Both hosts broadcast once, the old rule expires, and then a frame of the first host reaches the
second at its new place. -/
theorem delivery_recovers_twoSwitches :
    let ethF : Ethernet := ⟨⟨1⟩, ⟨9⟩, .arp ⟨ARP.OP_REQUEST, ⟨1⟩, ⟨1⟩, ⟨0⟩, ⟨2⟩⟩⟩
    let ethG : Ethernet := ⟨⟨2⟩, ⟨9⟩, .arp ⟨ARP.OP_REQUEST, ⟨2⟩, ⟨2⟩, ⟨0⟩, ⟨1⟩⟩⟩
    let ethK : Ethernet := ⟨⟨1⟩, ⟨2⟩, .arp ⟨ARP.OP_REPLY, ⟨1⟩, ⟨1⟩, ⟨2⟩, ⟨2⟩⟩⟩
    let f : Frame Bool := ⟨0, false, ethF⟩
    let g : Frame Bool := ⟨1, true, ethG⟩
    let k : Frame Bool := ⟨2, false, ethK⟩
    let next := netNext twoSwitches .flowRuleService ⟨"nctu.winlab.bridge"⟩
    let s₁ := run next (Net.start movedState)
      [.inject false ethF, .hop ⟨f, ⟨⟨1⟩, ⟨1⟩⟩⟩, .inject true ethG, .hop ⟨f, ⟨⟨2⟩, ⟨2⟩⟩⟩,
        .hop ⟨g, ⟨⟨2⟩, ⟨1⟩⟩⟩, .hop ⟨g, ⟨⟨1⟩, ⟨2⟩⟩⟩]
    let s₂ := run next s₁ [.expire (pairRule ⟨"nctu.winlab.bridge"⟩ ⟨1⟩ ⟨1⟩ ⟨2⟩ ⟨1⟩)]
    let s₃ := run next s₂ [.inject false ethK, .hop ⟨k, ⟨⟨1⟩, ⟨1⟩⟩⟩, .hop ⟨k, ⟨⟨2⟩, ⟨2⟩⟩⟩]
    s₃.received.count (true, k) = 1 := by
  intro ethF ethG ethK f g k next s₁ s₂ s₃
  have hrules : s₁.bridge.liveRules = [pairRule ⟨"nctu.winlab.bridge"⟩ ⟨1⟩ ⟨1⟩ ⟨2⟩ ⟨1⟩] := by
    decide
  refine (delivery_recovers twoSwitches .flowRuleService ⟨"nctu.winlab.bridge"⟩ movedState
    speaksOfHosts_movedState _ _ _ s₁ s₂ s₃ rfl rfl rfl ?_ ?_).2 k (by decide) (by decide)
    (by decide) true ⟨by decide, Or.inl (by decide)⟩
  · intro h
    cases h with
    | false => exact ⟨f, by decide, rfl, by decide, by decide⟩
    | true => exact ⟨g, by decide, rfl, by decide, by decide⟩
  · intro r hr
    rw [hrules, List.mem_singleton] at hr
    rw [hr]
    exact List.mem_singleton_self _

end Bridge
