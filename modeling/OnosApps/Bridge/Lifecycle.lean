import OnosApps.Bridge.Recovery

/-!
# Starting and stopping the bridge in a running network

`activate` registers the packet processor and then requests the packets; `deactivate` withdraws
the requests, removes the rules of the application and then the processor. The steps are taken
one by one, with frames in flight and packet-ins on their way in between. A frame that hits no
rule while the packets are not requested may be lost; a packet-in that is handled after the rules
have been removed installs a rule that outlives the application, and the next activation starts
with empty tables beside it.

None of this can duplicate a frame or send it to the wrong place. For each host a frame is for,
there is exactly one of these at any time: a copy in flight that has the host ahead, a copy that was
lost with the host ahead, a receipt by the host.

## Main definitions

* `Phase`, `Site.advance`: the steps of `activate` and `deactivate`
* `Site`, `SiteEvent`, `siteNext`: the network with the application started and stopped
* `Recalls T appId t s`: the invariant of tables, rules and copies, where `t` stands for what all
  activations together have recorded

## Main results

* `Recalls.netNext`: what a step of the network preserves, whatever rules are left over
* `Recalls.once_hop`: a hop still puts one copy or receipt in the place of the one it takes
* `restarts_account_for_frames`: the account of every frame, over every run
* `stopping_removes_rules`: when a stopped application has left no rule behind
-/

namespace Bridge

open Onos Runs

variable {H : Type}

/-! ## The application in its phases -/

/-- How far `activate` and `deactivate` have come. -/
inductive Phase where
  | stopped
  /-- The processor is registered, the packets are not requested yet. -/
  | registered
  | running
  /-- The requests are withdrawn. -/
  | withdrawn
  /-- The rules of the application are removed, the processor is not. -/
  | cleared
deriving DecidableEq, Repr

/-- A network, the phase of the application, and the copies that were lost so far. -/
structure Site (H : Type) where
  net : Net H
  phase : Phase
  lost : List (Copy H)

/-- Nothing in flight, and the application not started. -/
def Site.init : Site H := ⟨Net.init, .stopped, []⟩

/-- `removeFlowRulesById`. -/
def removeFlowRulesById (appId : ApplicationId) (b : State) : State :=
  { b with liveRules := b.liveRules.filter fun r => r.appId ≠ appId }

/-- The next statement of `activate` or `deactivate`. -/
def Site.advance (appId : ApplicationId) (s : Site H) : Site H :=
  match s.phase with
  -- `activate` of a new instance of the component, whose tables are empty
  | .stopped =>
    { s with
      phase := .registered
      net := { s.net with bridge := { s.net.bridge with macAddressTables := ∅ } } }
  | .registered => { s with phase := .running }
  -- `deactivate`
  | .running => { s with phase := .withdrawn }
  | .withdrawn =>
    { s with
      phase := .cleared
      net := { s.net with bridge := removeFlowRulesById appId s.net.bridge } }
  | .cleared => { s with phase := .stopped }

/-- A step that needs a call of `process`: the hop of a copy that hits no rule. -/
def Calls (b : State) : NetEvent H → Prop
  | .hop c => hit b ⟨c.cp, c.frame.eth⟩ = none
  | _ => False

instance (b : State) : (e : NetEvent H) → Decidable (Calls b e)
  | .hop _ => inferInstanceAs (Decidable (_ = none))
  | .inject _ _ | .expire _ => inferInstanceAs (Decidable False)

inductive SiteEvent (H : Type) where
  | net (e : NetEvent H)
  /-- A switch drops a copy that hits no rule. -/
  | lose (c : Copy H)
  | advance

section Steps

variable (T : Topology H) (service : RuleService) (appId : ApplicationId) [DecidableEq H]

/-- One step. Without a processor no packet is handled; unless the packets are requested, a copy
that hits no rule may be dropped. -/
def siteNext (s : Site H) : SiteEvent H → Site H
  | .net e =>
    if s.phase = .stopped ∧ Calls s.net.bridge e then s
    else { s with net := netNext T service appId s.net e }
  | .lose c =>
    if s.phase ≠ .running ∧ Calls s.net.bridge (.hop c) ∧ Moves s.net (.hop c) then
      { s with
        net := { s.net with inFlight := s.net.inFlight.erase c }
        lost := c :: s.lost }
    else s
  | .advance => s.advance appId

/-- **What a step does**: nothing, a step of the network, the loss of a copy, or the next statement
of `activate` or `deactivate`. -/
theorem siteNext_cases (s : Site H) (e : SiteEvent H) :
    siteNext T service appId s e = s ∨
      (∃ e', e = .net e' ∧ (s.phase = .stopped → ¬ Calls s.net.bridge e') ∧
        siteNext T service appId s e = { s with net := netNext T service appId s.net e' }) ∨
      (∃ c ∈ s.net.inFlight, e = .lose c ∧ s.phase ≠ .running ∧
        siteNext T service appId s e =
          { s with
            net := { s.net with inFlight := s.net.inFlight.erase c }
            lost := c :: s.lost }) ∨
      e = .advance ∧ siteNext T service appId s e = s.advance appId := by
  cases e with
  | net e' =>
    by_cases h : s.phase = .stopped ∧ Calls s.net.bridge e'
    · exact Or.inl (if_pos h)
    · refine Or.inr (Or.inl ⟨e', rfl, fun hs hc => h ⟨hs, hc⟩, if_neg h⟩)
  | lose c =>
    by_cases h : s.phase ≠ .running ∧ Calls s.net.bridge (.hop c) ∧ Moves s.net (.hop c)
    · exact Or.inr (Or.inr (Or.inl ⟨c, h.2.2, rfl, h.1, if_pos h⟩))
    · exact Or.inl (if_neg h)
  | advance => exact Or.inr (Or.inr (Or.inr ⟨rfl, rfl⟩))

end Steps

/-! ## Tables, rules and copies across activations -/

/-- The tables and the copies point at the hosts, and so do the rules, with both their addresses
recorded in `t`: the present activation or an earlier one has recorded them. -/
structure Recalls (T : Topology H) (appId : ApplicationId) (t : MacAddressTables) (s : Net H) :
    Prop where
  tables : TablesPoint T s.bridge.macAddressTables
  memory : TablesPoint T t
  covers : Extends s.bridge.macAddressTables t
  rules : ∀ r ∈ s.bridge.liveRules, RulePoints T appId t r
  copies : CopiesLeave T s

section Recalls

variable {T : Topology H} {service : RuleService} {appId : ApplicationId} {t : MacAddressTables}
  {s : Net H}

/-- Taking rules away keeps it. -/
theorem Recalls.of_subset (hs : Recalls T appId t s) {rs : List FlowRule}
    (hrs : rs ⊆ s.bridge.liveRules) :
    Recalls T appId t { s with bridge := { s.bridge with liveRules := rs } } :=
  ⟨hs.tables, hs.memory, hs.covers, fun r hr => hs.rules r (hrs hr), hs.copies⟩

/-- A new activation forgets the tables. -/
theorem Recalls.forget (hs : Recalls T appId t s) :
    Recalls T appId t { s with bridge := { s.bridge with macAddressTables := ∅ } } :=
  ⟨fun d m q hq => by simp at hq, hs.memory, fun d m hm => by simp at hm, hs.rules, hs.copies⟩

/-- Every rule is of the application. -/
theorem Recalls.appId_eq (hs : Recalls T appId t s) {r : FlowRule} (hr : r ∈ s.bridge.liveRules) :
    r.appId = appId := by
  obtain ⟨m, n, q, h, hpair, -⟩ := hs.rules r hr
  rw [hpair]
  rfl

/-- What the memory records after a call of `process` on the tables. -/
theorem Recalls.covers_process (hs : Recalls T appId t s) {c : Copy H} (hc : c ∈ s.inFlight) :
    Extends (process service appId s.bridge.macAddressTables ⟨c.cp, c.frame.eth⟩).1
      (process service appId t ⟨c.cp, c.frame.eth⟩).1 := by
  intro d m hm
  have hh := (hs.copies c hc).2.2.2
  rw [portOf_process service appId _ hh] at hm ⊢
  split_ifs at hm ⊢
  · rfl
  · exact hs.covers d m hm

/-- A call of `process` installs a rule only for addresses that are recorded. -/
theorem Recalls.rules_packetIn (hs : Recalls T appId t s) {c : Copy H} (hc : c ∈ s.inFlight) :
    ∀ r ∈ (packetIn service appId s.bridge ⟨c.cp, c.frame.eth⟩).liveRules,
      RulePoints T appId (process service appId t ⟨c.cp, c.frame.eth⟩).1 r := by
  have hl := hs.copies c hc
  have hh : Handled (⟨c.cp, c.frame.eth⟩ : InboundPacket).parsed := hl.2.2.2
  intro r hr
  rcases (mem_packetIn_rules hh).mp hr with ⟨q, hq, rfl⟩ | ⟨hr, -⟩
  · -- a new rule: the tables have its addresses, so the memory has them too
    obtain ⟨h, hmac, hto⟩ := hs.tables.process hl _ _ q hq
    refine ⟨_, _, q, h, rfl, hmac, hto, ?_, ?_⟩
    · exact Option.isSome_of_eq_some (portOf_process_source service appId t hh)
    · exact hs.covers_process hc _ _ (Option.isSome_of_eq_some hq)
  · exact (hs.rules r hr).mono (extends_process service appId t _)

variable [DecidableEq H]

/-- **Every step of the network keeps it**, whatever rules are left over. -/
theorem Recalls.netNext (hs : Recalls T appId t s) (e : NetEvent H) :
    ∃ t', Recalls T appId t' (netNext T service appId s e) := by
  have hcopies : CopiesLeave T (Bridge.netNext T service appId s e) := hs.copies.netNext e
  obtain ⟨hb, -⟩ | ⟨c, hc, -, -, hb⟩ | ⟨r, -, hb⟩ := bridge_netNext_cases T service appId s e
  · exact ⟨t, by rw [hb]; exact hs.tables, hs.memory, by rw [hb]; exact hs.covers,
      by rw [hb]; exact hs.rules, hcopies⟩
  · have hl := hs.copies c hc
    refine ⟨(process service appId t ⟨c.cp, c.frame.eth⟩).1, ?_, hs.memory.process hl, ?_, ?_,
      hcopies⟩
    · rw [hb, packetIn_tables]
      exact hs.tables.process hl
    · rw [hb, packetIn_tables]
      exact hs.covers_process hc
    · rw [hb]
      exact hs.rules_packetIn hc
  · have hrules : (expire s.bridge r).liveRules ⊆ s.bridge.liveRules := List.filter_subset_self _
    exact ⟨t, by rw [hb]; exact hs.tables, hs.memory, by rw [hb]; exact hs.covers,
      by rw [hb]; exact (hs.of_subset hrules).rules, hcopies⟩

omit [DecidableEq H] in
variable (service) in
/-- A copy is treated as by a bridge whose rules are all recorded in its own tables: one that
remembers, if the copy hits a rule, and one without rules, if it does not. -/
theorem Recalls.exists_bridge (hs : Recalls T appId t s) (pkt : InboundPacket) :
    ∃ b, PointsAtHosts T appId { s with bridge := b } ∧
      cachedOut service appId b (.frame pkt) = cachedOut service appId s.bridge (.frame pkt) := by
  cases hr : hit s.bridge pkt with
  | some r =>
    refine ⟨⟨t, s.bridge.liveRules⟩, ⟨hs.memory, hs.rules, hs.copies⟩, ?_⟩
    have hr' : hit ⟨t, s.bridge.liveRules⟩ pkt = some r := hr
    simp only [cachedOut, hr, hr']
  | none =>
    refine ⟨⟨s.bridge.macAddressTables, []⟩, ⟨hs.tables, by simp [RulesPoint], hs.copies⟩, ?_⟩
    have hr' : hit ⟨s.bridge.macAddressTables, []⟩ pkt = none := rfl
    simp only [cachedOut, hr, hr']

/-- A hop keeps the account, with `cs` copies beside those in flight. -/
theorem Recalls.once_hop {cs : List (Copy H)} (hs : Recalls T appId t s)
    (hcs : ∀ c ∈ cs, CopyLeaves T c) (honce : Once T { s with inFlight := s.inFlight ++ cs })
    (c : Copy H) :
    Once T { Bridge.netNext T service appId s (.hop c) with
      inFlight := (Bridge.netNext T service appId s (.hop c)).inFlight ++ cs } := by
  by_cases hc : c ∈ s.inFlight
  · have hall : Recalls T appId t { s with inFlight := s.inFlight ++ cs } := by
      refine ⟨hs.tables, hs.memory, hs.covers, hs.rules, fun c hc => ?_⟩
      rcases List.mem_append.mp hc with hc | hc
      · exact hs.copies c hc
      · exact hcs c hc
    obtain ⟨b, hp, hout⟩ := hall.exists_bridge service ⟨c.cp, c.frame.eth⟩
    have hone := honce.out hp (List.mem_append_left cs hc) hout
    refine hone.of_perm ?_ ?_ ?_
    · rw [injected_hop]
    · rw [inFlight_hop hc, List.erase_append_left cs hc]
      -- the copies beside come last on one side, and before the new ones on the other
      rw [List.append_assoc, List.append_assoc]
      exact (List.perm_append_comm).append_left _
    · rw [received_hop hc]
  · rw [netNext_hop_of_notMem hc]
    exact honce

end Recalls

/-! ## The account of a frame -/

section Account

variable {T : Topology H} {service : RuleService} {appId : ApplicationId} [DecidableEq H]

/-- The network in which a lost copy is still in flight and never moves again. -/
def Site.whole (s : Site H) : Net H :=
  { s.net with inFlight := s.net.inFlight ++ s.lost }

/-- What holds in every state of a network in which the application is started and stopped. -/
structure Accounted (T : Topology H) (appId : ApplicationId) (s : Site H) : Prop where
  recalls : ∃ t, Recalls T appId t s.net
  lost : ∀ c ∈ s.lost, CopyLeaves T c
  numbered : Numbered s.whole
  once : Once T s.whole
  senders : ∀ x ∈ s.net.received, x.1 ≠ x.2.sender

/-- Frames stay injected. -/
theorem injected_subset_netNext (s : Net H) (e : NetEvent H) :
    s.injected ⊆ (netNext T service appId s e).injected := by
  cases e with
  | expire r => exact List.Subset.refl _
  | inject h eth =>
    simp only [netNext]
    split_ifs
    · exact List.subset_append_left _ _
    · exact List.Subset.refl _
  | hop c =>
    rw [injected_hop]
    exact List.Subset.refl _

omit [DecidableEq H] in
theorem Numbered.of_whole {s : Site H} (hs : Numbered s.whole) : Numbered s.net :=
  ⟨hs.ids, fun c hc => hs.copies c (List.mem_append_left _ hc), hs.receipts⟩

/-- A step of the network keeps the account. -/
theorem Accounted.net {s : Site H} (hs : Accounted T appId s) (e : NetEvent H) :
    Accounted T appId { s with net := netNext T service appId s.net e } := by
  obtain ⟨t, ht⟩ := hs.recalls
  have hn : Numbered (Bridge.netNext T service appId s.net e) := hs.numbered.of_whole.netNext e
  refine ⟨ht.netNext e, hs.lost, ⟨hn.ids, fun c hc => ?_, hn.receipts⟩, ?_,
    ne_sender_netNext ht.copies hs.senders e⟩
  · rcases List.mem_append.mp hc with hc | hc
    · exact hn.copies c hc
    · exact injected_subset_netNext s.net e (hs.numbered.copies c (List.mem_append_right _ hc))
  · cases e with
    | expire r => exact hs.once
    | hop c => exact ht.once_hop hs.lost hs.once c
    | inject h eth =>
      have hinject : Once T (Bridge.netNext T service appId s.whole (.inject h eth)) :=
        hs.once.inject hs.numbered h eth
      refine hinject.of_perm ?_ ?_ ?_ <;>
        simp only [Bridge.netNext, Site.whole] <;> split_ifs <;> rfl

/-- A copy that is lost counts as before. -/
theorem Accounted.lose {s : Site H} (hs : Accounted T appId s) {c : Copy H}
    (hc : c ∈ s.net.inFlight) :
    Accounted T appId
      { s with
        net := { s.net with inFlight := s.net.inFlight.erase c }
        lost := c :: s.lost } := by
  obtain ⟨t, ht⟩ := hs.recalls
  have hperm : (s.net.inFlight.erase c ++ c :: s.lost).Perm (s.net.inFlight ++ s.lost) := by
    refine List.perm_middle.trans ?_
    exact ((List.perm_cons_erase hc).symm).append_right s.lost
  refine ⟨⟨t, ht.tables, ht.memory, ht.covers, ht.rules, ?_⟩, ?_, ?_,
    hs.once.of_perm rfl hperm rfl, hs.senders⟩
  · exact fun c' hc' => ht.copies c' (List.mem_of_mem_erase hc')
  · intro c' hc'
    rcases List.mem_cons.mp hc' with rfl | hc'
    · exact ht.copies _ hc
    · exact hs.lost c' hc'
  · exact ⟨hs.numbered.ids, fun c' hc' => hs.numbered.copies c' (hperm.mem_iff.mp hc'),
      hs.numbered.receipts⟩

omit [DecidableEq H] in
/-- `activate` and `deactivate` touch tables and rules only. -/
theorem Recalls.advance {s : Site H} {t : MacAddressTables} (ht : Recalls T appId t s.net) :
    Recalls T appId t (s.advance appId).net := by
  unfold Site.advance
  cases s.phase with
  | stopped => exact ht.forget
  | withdrawn => exact ht.of_subset (List.filter_subset_self _)
  | registered => exact ht
  | running => exact ht
  | cleared => exact ht

omit [DecidableEq H] in
variable (appId) in
theorem exists_advance (s : Site H) :
    ∃ b phase, s.advance appId = ⟨{ s.net with bridge := b }, phase, s.lost⟩ := by
  unfold Site.advance
  cases s.phase <;> exact ⟨_, _, rfl⟩

theorem Accounted.advance {s : Site H} (hs : Accounted T appId s) :
    Accounted T appId (s.advance appId) := by
  obtain ⟨t, ht⟩ := hs.recalls
  have ht' := ht.advance
  obtain ⟨b, phase, h⟩ := exists_advance appId s
  rw [h] at ht' ⊢
  exact ⟨⟨t, ht'⟩, hs.lost, ⟨hs.numbered.ids, hs.numbered.copies, hs.numbered.receipts⟩, hs.once,
    hs.senders⟩

/-- **Every step keeps the account.** -/
theorem Accounted.siteNext {s : Site H} (hs : Accounted T appId s) (e : SiteEvent H) :
    Accounted T appId (siteNext T service appId s e) := by
  obtain h | ⟨e', -, -, h⟩ | ⟨c, hc, -, -, h⟩ | ⟨-, h⟩ := siteNext_cases T service appId s e
  · rwa [h]
  · rw [h]
    exact hs.net e'
  · rw [h]
    exact hs.lose hc
  · rw [h]
    exact hs.advance

theorem accounted_init : Accounted T appId (Site.init : Site H) := by
  refine ⟨⟨∅, ?_⟩, by simp [Site.init], ?_, by simp [Once, Site.whole, Site.init, Net.init],
    by simp [Site.init, Net.init]⟩
  · have hp : PointsAtHosts T appId (Net.init : Net H) := pointsAtHosts_init
    exact ⟨hp.tables, hp.tables, fun d m hm => hm, hp.rules, hp.copies⟩
  · constructor <;> simp [Site.whole, Site.init, Net.init]

theorem accounted_run (es : List (SiteEvent H)) :
    Accounted T appId (run (Bridge.siteNext T service appId) Site.init es) :=
  run_invariant (fun _ e hs => hs.siteNext e) accounted_init es

end Account

/-- **Every frame is accounted for across restarts.** Start and stop the application any number
of times, with frames in flight, rules left over and copies lost at any point. For every frame and
every host it is for, the copies in flight that have the host ahead, the copies lost with the host
ahead and the receipts by the host number one together; so a frame never arrives twice, and it
arrives unless a copy was lost on the way to that very host. No frame comes back to its sender. -/
theorem restarts_account_for_frames [DecidableEq H] (T : Topology H) (service : RuleService)
    (appId : ApplicationId) (es : List (SiteEvent H)) :
    let s := run (siteNext T service appId) Site.init es
    (∀ f ∈ s.net.injected, ∀ B, IsFor T f B →
        pending T B f s.net.inFlight + pending T B f s.lost + s.net.received.count (B, f) = 1) ∧
      ∀ x ∈ s.net.received, x.1 ≠ x.2.sender := by
  intro s
  have hs : Accounted T appId s := accounted_run es
  refine ⟨fun f hf B hB => ?_, hs.senders⟩
  rw [← pending_append]
  exact hs.once f hf B hB

/-! ## Frames sent while the application is running -/

/-- While the application is running, no copy is lost. -/
theorem lost_run_of_running [DecidableEq H] {T : Topology H} {service : RuleService}
    {appId : ApplicationId} {s : Site H} {es : List (SiteEvent H)}
    (hrun : Along (siteNext T service appId) (fun s _ => s.phase = .running) s es) :
    (run (siteNext T service appId) s es).lost = s.lost := by
  refine hrun.run_invariant (P := fun s' => s'.lost = s.lost) (fun s' e hs' hphase => ?_) rfl
  obtain h | ⟨e', -, -, h⟩ | ⟨c, -, -, hne, -⟩ | ⟨-, h⟩ := siteNext_cases T service appId s' e
  · rwa [h]
  · rwa [h]
  · exact absurd hphase hne
  · obtain ⟨b, phase, hadv⟩ := exists_advance appId s'
    rwa [h, hadv]

/-- **A restarted application delivers.** Whatever has happened before, rules that outlived an
earlier activation included: a frame that is sent and forwarded while the application is running is
received exactly once by every host it is for. -/
theorem delivered_after_restarts [DecidableEq H] (T : Topology H) (service : RuleService)
    (appId : ApplicationId) (es₁ es₂ : List (SiteEvent H)) (s₁ s₂ : Site H)
    (hs₁ : s₁ = run (siteNext T service appId) Site.init es₁)
    (hs₂ : s₂ = run (siteNext T service appId) s₁ es₂)
    (hrun : Along (siteNext T service appId) (fun s _ => s.phase = .running) s₁ es₂)
    (f : Frame H) (hnew : f ∉ s₁.net.injected) (hf : f ∈ s₂.net.injected)
    (hdone : ∀ c ∈ s₂.net.inFlight, c.frame ≠ f) (B : H) (hB : IsFor T f B) :
    s₂.net.received.count (B, f) = 1 := by
  have hacc₁ : Accounted T appId s₁ := by
    rw [hs₁]
    exact accounted_run es₁
  have hacc₂ : Accounted T appId s₂ := by
    rw [hs₂, hs₁, ← run_append]
    exact accounted_run (es₁ ++ es₂)
  have hlost : s₂.lost = s₁.lost := by
    rw [hs₂]
    exact lost_run_of_running hrun
  -- what was lost was lost before the frame was sent
  have hgone : pending T B f s₂.whole.inFlight = 0 := by
    refine pending_eq_zero fun c hc heq => ?_
    rcases List.mem_append.mp hc with hc | hc
    · exact hdone c hc heq
    · rw [hlost] at hc
      exact hnew (heq ▸ hacc₁.numbered.copies c (List.mem_append_right _ hc))
  have hone := hacc₂.once f hf B hB
  rwa [hgone, Nat.zero_add] at hone

/-- The application on two switches: it learns where the second host is, and it is stopped while a
frame for that host is in flight. The frame is handled late, so the rule it installs on the first
switch stays, and it is lost on the second. -/
def stoppedInFlight : List (SiteEvent Bool) :=
  let ethG : Ethernet := ⟨⟨2⟩, ⟨9⟩, .arp ⟨ARP.OP_REQUEST, ⟨2⟩, ⟨2⟩, ⟨0⟩, ⟨1⟩⟩⟩
  let ethK : Ethernet := ⟨⟨1⟩, ⟨2⟩, .arp ⟨ARP.OP_REPLY, ⟨1⟩, ⟨1⟩, ⟨2⟩, ⟨2⟩⟩⟩
  let g : Frame Bool := ⟨0, true, ethG⟩
  let k : Frame Bool := ⟨1, false, ethK⟩
  [.advance, .advance, .net (.inject true ethG), .net (.hop ⟨g, ⟨⟨2⟩, ⟨1⟩⟩⟩),
    .net (.hop ⟨g, ⟨⟨1⟩, ⟨2⟩⟩⟩), .net (.inject false ethK), .advance, .advance,
    .net (.hop ⟨k, ⟨⟨1⟩, ⟨1⟩⟩⟩), .lose ⟨k, ⟨⟨2⟩, ⟨2⟩⟩⟩, .advance]

/-- Started again, the application delivers the next frame, over the rule that was left. -/
theorem delivered_after_restarts_twoSwitches :
    let ethK : Ethernet := ⟨⟨1⟩, ⟨2⟩, .arp ⟨ARP.OP_REPLY, ⟨1⟩, ⟨1⟩, ⟨2⟩, ⟨2⟩⟩⟩
    let k : Frame Bool := ⟨2, false, ethK⟩
    let next := siteNext twoSwitches .flowRuleService ⟨"nctu.winlab.bridge"⟩
    let s₁ := run next Site.init (stoppedInFlight ++ [.advance, .advance])
    let s₂ := run next s₁ [.net (.inject false ethK), .net (.hop ⟨k, ⟨⟨1⟩, ⟨1⟩⟩⟩),
      .net (.hop ⟨k, ⟨⟨2⟩, ⟨2⟩⟩⟩)]
    s₁.net.bridge.liveRules ≠ [] ∧ s₁.lost ≠ [] ∧ s₂.net.received.count (true, k) = 1 := by
  intro ethK k next s₁ s₂
  refine ⟨by decide, by decide, ?_⟩
  exact delivered_after_restarts twoSwitches .flowRuleService ⟨"nctu.winlab.bridge"⟩ _ _ s₁ s₂ rfl
    rfl (by decide) k (by decide) (by decide) (by decide) true ⟨by decide, Or.inl (by decide)⟩

/-! ## What a stopped application leaves behind -/

/-- A packet-in that is handled when the rules have been removed and the processor has not. -/
def InstallsLate (s : Site H) : SiteEvent H → Prop
  | .net e => s.phase = .cleared ∧ Calls s.net.bridge e
  | _ => False

instance (s : Site H) : (e : SiteEvent H) → Decidable (InstallsLate s e)
  | .net _ => inferInstanceAs (Decidable (_ ∧ _))
  | .lose _ | .advance => inferInstanceAs (Decidable False)

section Rules

variable {T : Topology H} {service : RuleService} {appId : ApplicationId} [DecidableEq H]

/-- Only a call of `process` installs a rule. -/
theorem liveRules_netNext_of_not_calls {s : Net H} {e : NetEvent H} (he : ¬ Calls s.bridge e) :
    (netNext T service appId s e).bridge.liveRules ⊆ s.bridge.liveRules := by
  obtain ⟨hb, -⟩ | ⟨c, -, rfl, hmiss, -⟩ | ⟨r, -, hb⟩ := bridge_netNext_cases T service appId s e
  · rw [hb]
    exact List.Subset.refl _
  · exact absurd hmiss he
  · rw [hb]
    exact List.filter_subset_self _

/-- The rules are gone, and nothing is there that installs others. -/
def Swept (s : Site H) : Prop :=
  s.phase = .cleared ∨ s.phase = .stopped → s.net.bridge.liveRules = []

/-- `removeFlowRulesById` removes every rule: all are of the application. -/
theorem Swept.advance {s : Site H} (hs : Swept s) (hacc : Accounted T appId s) :
    Swept (s.advance appId) := by
  obtain ⟨t, ht⟩ := hacc.recalls
  unfold Site.advance
  cases hp : s.phase with
  | stopped => simp [Swept]
  | registered => simp [Swept]
  | running => simp [Swept]
  | withdrawn =>
    intro _
    refine List.filter_eq_nil_iff.mpr fun r hr => ?_
    simp [ht.appId_eq hr]
  | cleared => exact fun _ => hs (Or.inl hp)

theorem Swept.siteNext {s : Site H} (hs : Swept s) (hacc : Accounted T appId s) {e : SiteEvent H}
    (he : ¬ InstallsLate s e) : Swept (siteNext T service appId s e) := by
  obtain h | ⟨e', rfl, hstopped, h⟩ | ⟨c, -, -, -, h⟩ | ⟨-, h⟩ :=
    siteNext_cases T service appId s e
  · rwa [h]
  · rw [h]
    intro hphase
    have hcalls : ¬ Calls s.net.bridge e' := by
      rcases hphase with hcleared | hstop
      · exact fun hc => he ⟨hcleared, hc⟩
      · exact hstopped hstop
    exact List.subset_nil.mp (hs hphase ▸ liveRules_netNext_of_not_calls hcalls)
  · rwa [h]
  · rw [h]
    exact hs.advance hacc

end Rules

/-- **A stopped application leaves no rule behind**, unless a packet-in was handled between the
removal of the rules and the removal of the processor. Only the last deactivation matters: what
happened before a state in which the application was running makes no difference. -/
theorem stopping_removes_rules [DecidableEq H] (T : Topology H) (service : RuleService)
    (appId : ApplicationId) (es₁ es₂ : List (SiteEvent H)) (s₁ s₂ : Site H)
    (hs₁ : s₁ = run (siteNext T service appId) Site.init es₁)
    (hs₂ : s₂ = run (siteNext T service appId) s₁ es₂)
    (hstart : es₁ = [] ∨ s₁.phase = .running)
    (hquiet : Along (siteNext T service appId) (fun s e => ¬ InstallsLate s e) s₁ es₂)
    (hphase : s₂.phase = .cleared ∨ s₂.phase = .stopped) : s₂.net.bridge.liveRules = [] := by
  have hacc₁ : Accounted T appId s₁ := hs₁ ▸ accounted_run es₁
  have hswept₁ : Swept s₁ := by
    rcases hstart with rfl | hrunning
    · rw [hs₁]
      exact fun _ => rfl
    · simp [Swept, hrunning]
  have hrun : Accounted T appId s₂ ∧ Swept s₂ := by
    rw [hs₂]
    exact hquiet.run_invariant (P := fun s => Accounted T appId s ∧ Swept s)
      (fun s e ⟨hacc, hs⟩ he => ⟨hacc.siteNext e, hs.siteNext hacc he⟩) ⟨hacc₁, hswept₁⟩
  exact hrun.2 hphase

/-- A rule that was installed late in an earlier deactivation is live when the application runs
again, and stopping it removes the rule. -/
theorem stopping_removes_rules_twoSwitches :
    let next := siteNext twoSwitches .flowRuleService ⟨"nctu.winlab.bridge"⟩
    let s₁ := run next Site.init (stoppedInFlight ++ [.advance, .advance])
    let s₂ := run next s₁ [.advance, .advance, .advance]
    s₁.net.bridge.liveRules ≠ [] ∧ s₂.phase = .stopped ∧ s₂.net.bridge.liveRules = [] := by
  intro next s₁ s₂
  refine ⟨by decide, by decide, ?_⟩
  exact stopping_removes_rules twoSwitches .flowRuleService ⟨"nctu.winlab.bridge"⟩ _ _ s₁ s₂ rfl rfl
    (.inr (by decide)) (by decide) (.inr (by decide))

-- the condition matters: here the packet-in was handled late, and its rule outlives the application
example :
    let s := run (siteNext twoSwitches .flowRuleService ⟨"nctu.winlab.bridge"⟩) Site.init
      stoppedInFlight
    s.phase = .stopped ∧
      s.net.bridge.liveRules = [pairRule ⟨"nctu.winlab.bridge"⟩ ⟨1⟩ ⟨1⟩ ⟨2⟩ ⟨2⟩] := by
  decide

end Bridge
