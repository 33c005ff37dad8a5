import OnosApps.Bridge.RuleCache

/-!
# The learning bridge: an address that moves

`process` records the port of the source address on every packet-in, but it never takes a
rule back: a rule goes when it expires, or when a rule with the same pair of addresses is
installed. Tables and rules therefore agree exactly in the runs in which an address shows up
on another port of a switch only after the rules towards it have expired there.

## Main definitions

* `controllerNext`: a packet-in goes to `process`, a live rule expires
* `OnlyAdds`: a call takes no rule back
* `LearningRespected`: after every call, the rules towards the address just learned output to
  the port just learned
* `Coherent`: no live rule disagrees with the table
* `Settled`: the step does not move an address towards which rules are live

## Main results

* `onlyAdds`: every call only adds the rule of the packet's own pair of addresses
* `coherent_next_iff`: a step from a coherent state keeps it coherent exactly when it is
  settled
* `learningRespected_iff_settled`: both for whole runs
* `relearning_leaves_rule`: a run of three packet-ins that leaves a rule to the old port
-/

namespace Bridge

open Onos Runs

section Relearning

variable (service : RuleService) (appId : ApplicationId)

/-- A packet-in goes to `process`; a live rule expires. -/
def controllerNext (s : State) : Event → State
  | .frame pkt => packetIn service appId s pkt
  | .expire r => expire s r

/-- The call takes no rule back. A rule that was live is live afterwards as it was, unless a rule
with the same match, for the packet's own pair of addresses, is live in its place; a rule that was
not live is such a rule, and it is temporary. -/
structure OnlyAdds (s : State) (pkt : InboundPacket) : Prop where
  kept : ∀ r ∈ s.liveRules, r ∈ (packetIn service appId s pkt).liveRules ∨
    ∃ p, pairRule appId pkt.receivedFrom.deviceId pkt.parsed.sourceMAC pkt.parsed.destinationMAC p ∈
        (packetIn service appId s pkt).liveRules ∧
      SameMatch r (pairRule appId pkt.receivedFrom.deviceId pkt.parsed.sourceMAC
        pkt.parsed.destinationMAC p)
  added : ∀ r ∈ (packetIn service appId s pkt).liveRules, r ∈ s.liveRules ∨
    r.timeout = 30 ∧ ∃ p, r = pairRule appId pkt.receivedFrom.deviceId pkt.parsed.sourceMAC
      pkt.parsed.destinationMAC p

/-- The call records the source address of the packet at the port it came in on: every rule
live on the switch after the call, with that address as its destination, outputs to that
port. -/
def Learned (s : State) (pkt : InboundPacket) : Prop :=
  ∀ r ∈ (packetIn service appId s pkt).liveRules, r.deviceId = pkt.receivedFrom.deviceId →
    r.selector.ethDst = some pkt.parsed.sourceMAC →
      r.treatment.output = some (.port pkt.receivedFrom.port)

/-- Every call of the run that records an address is followed by the rules towards it. -/
def LearningRespected (es : List Event) : Prop :=
  ∀ es' pkt, es' ++ [.frame pkt] <+: es → Handled pkt.parsed →
    Learned service appId (run (controllerNext service appId) State.init es') pkt

/-- No live rule disagrees with the table of its switch. -/
def Coherent (s : State) : Prop :=
  ∀ r ∈ s.liveRules, ∀ n p, r.selector.ethDst = some n →
    portOf s.macAddressTables r.deviceId n = some p → r.treatment.output = some (.port p)

/-- The live rules were installed by the application, towards recorded addresses. -/
def OwnRules (s : State) : Prop :=
  ∀ r ∈ s.liveRules, ∃ d m n p, r = pairRule appId d m n p ∧
    (portOf s.macAddressTables d n).isSome

/-- A packet-in is settled if its source address comes in on the port recorded for it, or no
rule towards that address is live on the switch. The rule for the frame's own pair of
addresses does not count: the call installs it anew if it is a rule towards the source. -/
def Settled (s : State) : Event → Prop
  | .frame pkt => Handled pkt.parsed → ∀ r ∈ s.liveRules,
      r.deviceId = pkt.receivedFrom.deviceId → r.selector.ethDst = some pkt.parsed.sourceMAC →
      r.selector ≠ pairSelector pkt.parsed.sourceMAC pkt.parsed.destinationMAC →
        portOf s.macAddressTables pkt.receivedFrom.deviceId pkt.parsed.sourceMAC =
          some pkt.receivedFrom.port
  | .expire _ => True

variable {service appId} {s : State}

variable (service appId s) in
/-- **No call takes a rule back.** -/
theorem onlyAdds (pkt : InboundPacket) : OnlyAdds service appId s pkt := by
  refine ⟨fun r hr => mem_or_replaced_packetIn service appId hr pkt, fun r hr => ?_⟩
  by_cases hh : Handled pkt.parsed
  · rcases (mem_packetIn_rules hh).mp hr with ⟨p, -, rfl⟩ | ⟨hr, -⟩
    · exact .inr ⟨rfl, p, rfl⟩
    · exact .inl hr
  · rw [packetIn_of_not_handled hh] at hr
    exact .inl hr

theorem ownRules_init : OwnRules appId State.init := fun r hr => by simp [State.init] at hr

theorem coherent_init : Coherent State.init := fun r hr => by simp [State.init] at hr

theorem OwnRules.next (hs : OwnRules appId s) (e : Event) :
    OwnRules appId (controllerNext service appId s e) := by
  intro r hr
  cases e with
  | expire r' =>
    exact hs r (List.mem_of_mem_filter hr)
  | frame pkt =>
    by_cases hh : Handled pkt.parsed
    · rcases (mem_packetIn_rules hh).mp hr with ⟨p, hp, rfl⟩ | ⟨hr, -⟩
      -- the rule just installed outputs to the port just looked up
      · exact ⟨_, _, _, p, rfl, by simp [controllerNext, hp]⟩
      · obtain ⟨d, m, n, p, rfl, hn⟩ := hs r hr
        exact ⟨d, m, n, p, rfl, extends_process service appId _ pkt d n hn⟩
    · rw [controllerNext, packetIn_of_not_handled hh] at hr ⊢
      exact hs r hr

/-- A call can only break the agreement of tables and rules at the address it learns. -/
theorem Coherent.packetIn {pkt : InboundPacket} (hh : Handled pkt.parsed) (hs : Coherent s)
    (hlearn : Learned service appId s pkt) : Coherent (packetIn service appId s pkt) := by
  intro r hr n p hn hp
  have hport := hp
  rw [packetIn_tables, portOf_process service appId _ hh] at hport
  split_ifs at hport with hmoved
  -- the address the call has just recorded, or any other
  · obtain ⟨hd, rfl⟩ := hmoved
    obtain rfl := Option.some.inj hport
    exact hlearn r hr hd hn
  · rcases (mem_packetIn_rules hh).mp hr with ⟨q, hq, rfl⟩ | ⟨hr, -⟩
    · -- the new rule outputs to the port just looked up
      obtain rfl : pkt.parsed.destinationMAC = n := by simpa [pairRule, pairSelector] using hn
      rw [show q = p from Option.some.inj (hq.symm.trans hp)]
      rfl
    · exact hs r hr n p hn hport

/-- The rules towards the source of a settled packet-in that the call does not replace output
to the port of the packet already. -/
theorem Settled.learned {pkt : InboundPacket} (hset : Settled s (.frame pkt))
    (hh : Handled pkt.parsed) (hown : OwnRules appId s) (hs : Coherent s) :
    Learned service appId s pkt := by
  intro r hr hd hn
  rcases (mem_packetIn_rules hh).mp hr with ⟨q, hq, rfl⟩ | ⟨hr, hkept⟩
  -- the new rule is towards the source only if a host sends to itself
  · obtain hdst : pkt.parsed.destinationMAC = pkt.parsed.sourceMAC := by
      simpa [pairRule, pairSelector] using hn
    rw [hdst, portOf_process_source service appId _ hh] at hq
    rw [Option.some.inj hq]
    rfl
  -- a rule that was live and is kept: the call would have replaced the frame's own pair
  · have hne : r.selector ≠ pairSelector pkt.parsed.sourceMAC pkt.parsed.destinationMAC := by
      intro hsel
      have hdst : pkt.parsed.destinationMAC = pkt.parsed.sourceMAC := by
        rw [hsel] at hn
        simpa [pairSelector] using hn
      obtain ⟨d, m, n, p', rfl, -⟩ := hown r hr
      refine hkept pkt.receivedFrom.port ?_ ⟨hd, hsel, rfl⟩
      rw [hdst]
      exact portOf_process_source service appId _ hh
    refine hs r hr _ _ hn ?_
    rw [hd]
    exact hset hh r hr hd hn hne

/-- **A step from a coherent state keeps it coherent exactly when it is settled.** -/
theorem coherent_next_iff (e : Event) (hown : OwnRules appId s) (hs : Coherent s) :
    Coherent (controllerNext service appId s e) ↔ Settled s e := by
  cases e with
  | expire r =>
    refine iff_of_true (fun r' hr' n p hn hp => ?_) trivial
    exact hs r' (List.mem_of_mem_filter hr') n p hn hp
  | frame pkt =>
    constructor
    · intro hnext hh r hr hd hn hne
      obtain ⟨d, m, n, q, rfl, hq⟩ := hown r hr
      obtain ⟨q', hq'⟩ := Option.isSome_iff_exists.mp hq
      obtain rfl : n = pkt.parsed.sourceMAC := by simpa [pairRule, pairSelector] using hn
      obtain rfl : d = pkt.receivedFrom.deviceId := hd
      -- the rule survives the call, so it outputs to the new port, as it did to the old one
      have hlive : pairRule appId pkt.receivedFrom.deviceId m pkt.parsed.sourceMAC q ∈
          (Bridge.packetIn service appId s pkt).liveRules :=
        (mem_packetIn_rules hh).mpr (Or.inr ⟨hr, fun p _ hsame => hne hsame.2.1⟩)
      have hnew := hnext _ hlive _ pkt.receivedFrom.port hn
        (portOf_process_source service appId _ hh)
      have hold := hs _ hr _ q' hn hq'
      rw [hold, Option.some.injEq, OutPort.port.injEq] at hnew
      rw [← hnew]
      exact hq'
    · intro hset
      by_cases hh : Handled pkt.parsed
      · exact hs.packetIn hh (hset.learned hh hown hs)
      · rwa [controllerNext, packetIn_of_not_handled hh]

/-- In a run that respects learning, tables and rules agree in every state, and conversely. -/
theorem forall_coherent_iff_learningRespected (es : List Event) :
    (∀ es', es' <+: es → Coherent (run (controllerNext service appId) State.init es')) ↔
      LearningRespected service appId es := by
  constructor
  · intro h es' pkt hp hh r hr hd hn
    have hs := h _ hp
    rw [run_snoc] at hs
    refine hs r hr _ _ hn ?_
    rw [hd]
    exact portOf_process_source service appId _ hh
  · intro h es' hp
    induction es' using List.reverseRecOn with
    | nil => exact coherent_init
    | append_singleton es' e ih =>
      have hs := ih ((List.prefix_append es' [e]).trans hp)
      rw [run_snoc]
      cases e with
      | expire r' =>
        intro r hr
        exact hs r (List.mem_of_mem_filter hr)
      | frame pkt =>
        by_cases hh : Handled pkt.parsed
        · exact hs.packetIn hh (h es' pkt hp hh)
        · rwa [controllerNext, packetIn_of_not_handled hh]

end Relearning

/-- **When relearning is followed by the rules.** In a run of packet-ins and expiries, no call
takes a rule back or rewrites one: it adds temporary rules, and a new rule replaces none but the
one for the same pair of addresses. Every call leaves the live rules towards the address it records
with the port it records, exactly when no packet-in of the run moves an address to another port of
a switch on which rules towards that address are still live. -/
theorem learningRespected_iff_settled (service : RuleService) (appId : ApplicationId)
    (es : List Event) :
    (∀ es' pkt, es' ++ [.frame pkt] <+: es →
        OnlyAdds service appId (run (controllerNext service appId) State.init es') pkt) ∧
      (LearningRespected service appId es ↔
        Along (controllerNext service appId) Settled State.init es) := by
  refine ⟨fun es' pkt _ => onlyAdds service appId _ pkt, ?_⟩
  rw [← forall_coherent_iff_learningRespected]
  exact forall_prefix_iff_along (fun s e hs => OwnRules.next hs e)
    (fun s e hown hs => coherent_next_iff e hown hs) (@ownRules_init appId) coherent_init es

/-- **A rule that outlives a move.** The address 1 is learned on port 1 of a switch, address
2 sends to it and gets a rule to port 1, and then address 1 sends from port 3: the rule still
outputs to port 1. None of the three packets hits a live rule when it comes in. -/
theorem relearning_leaves_rule :
    ¬ LearningRespected .flowObjectiveService ⟨"nctu.winlab.bridge"⟩
      [.frame ⟨⟨⟨1⟩, ⟨1⟩⟩, ⟨⟨1⟩, ⟨9⟩, .arp ⟨ARP.OP_REQUEST, ⟨1⟩, ⟨1⟩, ⟨0⟩, ⟨9⟩⟩⟩⟩,
        .frame ⟨⟨⟨1⟩, ⟨2⟩⟩, ⟨⟨2⟩, ⟨1⟩, .arp ⟨ARP.OP_REPLY, ⟨2⟩, ⟨2⟩, ⟨1⟩, ⟨1⟩⟩⟩⟩,
        .frame ⟨⟨⟨1⟩, ⟨3⟩⟩, ⟨⟨1⟩, ⟨9⟩, .arp ⟨ARP.OP_REQUEST, ⟨1⟩, ⟨1⟩, ⟨0⟩, ⟨9⟩⟩⟩⟩] := by
  intro h
  have hlearn := h
    [.frame ⟨⟨⟨1⟩, ⟨1⟩⟩, ⟨⟨1⟩, ⟨9⟩, .arp ⟨ARP.OP_REQUEST, ⟨1⟩, ⟨1⟩, ⟨0⟩, ⟨9⟩⟩⟩⟩,
      .frame ⟨⟨⟨1⟩, ⟨2⟩⟩, ⟨⟨2⟩, ⟨1⟩, .arp ⟨ARP.OP_REPLY, ⟨2⟩, ⟨2⟩, ⟨1⟩, ⟨1⟩⟩⟩⟩]
    ⟨⟨⟨1⟩, ⟨3⟩⟩, ⟨⟨1⟩, ⟨9⟩, .arp ⟨ARP.OP_REQUEST, ⟨1⟩, ⟨1⟩, ⟨0⟩, ⟨9⟩⟩⟩⟩ (by simp) (by decide)
    (pairRule ⟨"nctu.winlab.bridge"⟩ ⟨1⟩ ⟨2⟩ ⟨1⟩ ⟨1⟩) (by decide) (by decide) (by decide)
  exact absurd hlearn (by decide)

end Bridge
