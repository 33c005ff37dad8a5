import OnosApps.Bridge.Recovery
import OnosApps.Maps.NestedMap
import OnosApps.Runs.Threads

/-!
# The learning bridge under concurrent calls

The packet processor is called for several packets at a time, and the calls share the tables: one
map of references to inner maps, which the calls make, look up, write and read one operation at a
time. Here a call is a sequence of such operations, and the operations of all calls interleave in
any order, with each other and with what happens in the network.

The tables a call works on stay the tables of its switch, so no update is lost; and every call puts
its packet out as an undisturbed call would in some state that points at the hosts, so delivery is
still exactly once. Undisturbed, the operations of a call do what `process` does.

## Main definitions

* `CallPoint`, `operate`: the operations of `process`, one by one
* `Traffic`, `TrafficEvent`, `trafficNext`: the network with calls in progress
* `Delivers`: the invariants of the network with atomic calls, together
* `Represents t heap`: the heap holds the tables `t`
* `Threaded T appId t s`: the invariant

## Main results

* `Threaded.operate`, `Threaded.trafficNext`, `threaded_run`: the invariant along every
  interleaving
* `table_held_is_current`, `no_update_lost`: the tables are shared safely
* `delivered_exactly_once_concurrently`: delivery
* `exists_run_call`, `atomic_runs_are_interleavings`: calls that run alone
-/

namespace Bridge

open Onos Runs

variable {H : Type}

/-! ## Calls in progress -/

/-- `macAddressTables` as the heap has it. -/
abbrev TableHeap := NestedMap DeviceId MacAddress PortNumber

/-- The operation that a call of `process` makes next. -/
inductive CallPoint where
  | putIfAbsent
  | getTable
  | put (macAddressTable : ℕ)
  | get (macAddressTable : ℕ)
  | send (dstPort : Option PortNumber)
  | install (dstPort : PortNumber)
deriving DecidableEq, Repr

/-- A call of `process`: the copy it is about, and how far it has come. -/
structure Call (H : Type) where
  copy : Copy H
  point : CallPoint
deriving DecidableEq

/-- What the calls share: the tables in the heap, and the network. The tables of `net.bridge` are
not used. -/
structure Shared (H : Type) where
  heap : TableHeap
  net : Net H

/-- The network with calls in progress. -/
abbrev Traffic (H : Type) := Threads (Shared H) (Call H)

def Traffic.init : Traffic H := ⟨⟨.empty, Net.init⟩, []⟩

inductive TrafficEvent (H : Type) where
  | net (e : NetEvent H)
  /-- A call makes its next operation. -/
  | call (k : Call H)

section Steps

variable (T : Topology H) (service : RuleService) (appId : ApplicationId)

/-- A copy is put out. -/
def Net.emit (s : Net H) (c : Copy H) (o : OutPort) : Net H :=
  { s with
    inFlight := s.inFlight ++
      (outPorts T c.cp (some o)).filterMap (forwarded T c.frame c.cp.deviceId)
    received := s.received ++
      (outPorts T c.cp (some o)).filterMap (delivered T c.frame c.cp.deviceId) }

/-- A rule is put on a switch. -/
def Net.install (s : Net H) (request : RuleRequest) : Net H :=
  { s with
    bridge := { s.bridge with liveRules := installRule s.bridge.liveRules request.toFlowRule } }

/-- One operation of `process`: the shared data after it, and the call at its next point, unless it
has returned or thrown. -/
def operate (b : Shared H) (k : Call H) : Shared H × Option (Call H) :=
  let ethPkt := k.copy.frame.eth
  let cp := k.copy.cp
  match k.point with
  | .putIfAbsent =>
    if ethPkt.getEtherType ≠ Ethernet.TYPE_ARP ∧ ethPkt.getEtherType ≠ Ethernet.TYPE_IPV4 then
      (b, none)
    else ({ b with heap := b.heap.putIfAbsentNew cp.deviceId }, some ⟨k.copy, .getTable⟩)
  -- without a table, the next operation would throw
  | .getTable => (b, (b.heap.get cp.deviceId).map fun table => ⟨k.copy, .put table⟩)
  | .put table =>
    ({ b with heap := b.heap.putAt table ethPkt.sourceMAC cp.port }, some ⟨k.copy, .get table⟩)
  | .get table => (b, some ⟨k.copy, .send (b.heap.getAt table ethPkt.destinationMAC)⟩)
  | .send dstPort =>
    ({ b with net := b.net.emit T k.copy (outputTo dstPort) },
      dstPort.map fun dstPort => ⟨k.copy, .install dstPort⟩)
  | .install dstPort =>
    ({ b with net := b.net.install (ruleRequest service appId cp.deviceId ethPkt.sourceMAC
      ethPkt.destinationMAC dstPort) }, none)

variable [DecidableEq H]

/-- One step: a copy that hits no rule becomes a call, and a call makes its next operation. -/
def trafficNext (s : Traffic H) : TrafficEvent H → Traffic H
  | .net (.hop c) =>
    match hit s.shared.net.bridge ⟨c.cp, c.frame.eth⟩ with
    | some _ =>
      { s with shared := { s.shared with net := netNext T service appId s.shared.net (.hop c) } }
    | none =>
      if Moves s.shared.net (.hop c) then
        ⟨{ s.shared with
            net := { s.shared.net with inFlight := s.shared.net.inFlight.erase c } },
          ⟨c, .putIfAbsent⟩ :: s.calls⟩
      else s
  | .net e => { s with shared := { s.shared with net := netNext T service appId s.shared.net e } }
  | .call k => s.call (operate T service appId) k

end Steps

/-! ## Networks that deliver -/

/-- The invariants of the network with atomic calls, together. -/
structure Delivers (T : Topology H) (appId : ApplicationId) [DecidableEq H] (s : Net H) :
    Prop where
  points : PointsAtHosts T appId s
  numbered : Numbered s
  once : Once T s
  senders : ∀ x ∈ s.received, x.1 ≠ x.2.sender

section Delivers

variable {T : Topology H} {service : RuleService} {appId : ApplicationId} [DecidableEq H]
  {s s' : Net H}

theorem Delivers.netNext (hs : Delivers T appId s) (e : NetEvent H) :
    Delivers T appId (netNext T service appId s e) :=
  ⟨hs.points.netNext e, hs.numbered.netNext e, hs.once.netNext hs.points hs.numbered e,
    ne_sender_netNext hs.points.copies hs.senders e⟩

/-- The order of the copies does not matter. -/
theorem Delivers.of_perm (hs : Delivers T appId s) (hb : s'.bridge = s.bridge)
    (hi : s'.injected = s.injected) (hp : s'.inFlight.Perm s.inFlight)
    (hr : s'.received = s.received) : Delivers T appId s' := by
  refine ⟨⟨?_, ?_, ?_⟩, ⟨?_, ?_, ?_⟩, hs.once.of_perm hi hp hr, ?_⟩
  · rw [hb]
    exact hs.points.tables
  · rw [hb]
    exact hs.points.rules
  · exact fun c hc => hs.points.copies c (hp.mem_iff.mp hc)
  · rw [hi]
    exact hs.numbered.ids
  · rw [hi]
    exact fun c hc => hs.numbered.copies c (hp.mem_iff.mp hc)
  · rw [hi, hr]
    exact hs.numbered.receipts
  · rw [hr]
    exact hs.senders

/-- Other tables and rules that point at the hosts. -/
theorem Delivers.withBridge (hs : Delivers T appId s) {b : State} (hr : RulesPoint T appId b)
    (ht : TablesPoint T b.macAddressTables) :
    Delivers T appId { s with bridge := b } :=
  ⟨⟨ht, hr, hs.points.copies⟩, ⟨hs.numbered.ids, hs.numbered.copies, hs.numbered.receipts⟩,
    hs.once, hs.senders⟩

/-- A copy is taken out of flight and put out as some bridge that points at the hosts would put it
out. -/
theorem Delivers.out {b : State} {c : Copy H} {o : OutPort} (hs : Delivers T appId s)
    (hr : RulesPoint T appId b) (ht : TablesPoint T b.macAddressTables) (hc : c ∈ s.inFlight)
    (ho : cachedOut service appId b (.frame ⟨c.cp, c.frame.eth⟩) = some o) :
    Delivers T appId (Net.emit T { s with inFlight := s.inFlight.erase c } c o) := by
  have hmem : c ∈ ({ s with bridge := b } : Net H).inFlight := hc
  have hhop : Delivers T appId (Bridge.netNext T service appId { s with bridge := b } (.hop c)) :=
    (hs.withBridge hr ht).netNext (.hop c)
  rw [netNext_hop_of_mem hmem, ho] at hhop
  exact hhop.withBridge hs.points.rules hs.points.tables

end Delivers

/-! ## What the calls in progress may rely on -/

/-- The heap holds the tables `t`. -/
def Represents (t : MacAddressTables) (heap : TableHeap) : Prop :=
  ∀ d m, portOf t d m = heap.entry d m

/-- What a call has established before its next operation: the table of its switch is there, it
holds that table, its source is recorded in it, and the port it has found leads to the
destination. -/
def Call.Sound (T : Topology H) (appId : ApplicationId) (t : MacAddressTables) (heap : TableHeap)
    (k : Call H) : Prop :=
  let ethPkt := k.copy.frame.eth
  let d := k.copy.cp.deviceId
  match k.point with
  | .putIfAbsent => True
  | .getTable => (heap.get d).isSome
  | .put table => heap.get d = some table
  | .get table => heap.get d = some table ∧ (portOf t d ethPkt.sourceMAC).isSome
  | .send none => ethPkt.destinationMAC ≠ ethPkt.sourceMAC
  | .send (some q) | .install q =>
    RulePoints T appId t (pairRule appId d ethPkt.sourceMAC ethPkt.destinationMAC q)

/-- The copy of a call that has not put it out yet. -/
def Call.waits (k : Call H) : Option (Copy H) :=
  match k.point with
  | .install _ => none
  | _ => some k.copy

/-- The copies that are with a call. -/
def waiting (s : Traffic H) : List (Copy H) :=
  s.carried Call.waits

/-- The network in which the copies that are with a call are still in flight, and the tables are
`t`. -/
def whole (s : Traffic H) (t : MacAddressTables) : Net H :=
  { s.shared.net with
    bridge := ⟨t, s.shared.net.bridge.liveRules⟩
    inFlight := s.shared.net.inFlight ++ waiting s }

/-- The heap holds the tables `t`, the network with those tables delivers, and every call may rely
on what it has established. -/
structure Threaded (T : Topology H) (appId : ApplicationId) [DecidableEq H] (t : MacAddressTables)
    (s : Traffic H) : Prop where
  represents : Represents t s.shared.heap
  delivers : Delivers T appId (whole s t)
  sound : ∀ k ∈ s.calls, k.Sound T appId t s.shared.heap

section Sound

variable {T : Topology H} {service : RuleService} {appId : ApplicationId}
  {t t' : MacAddressTables} {heap heap' : TableHeap}

/-- What a call has established, no operation of another call undoes. -/
theorem Call.Sound.mono {k : Call H} (hk : k.Sound T appId t heap) (ht : Extends t t')
    (hheap : ∀ d r, heap.get d = some r → heap'.get d = some r) : k.Sound T appId t' heap' := by
  unfold Call.Sound at hk ⊢
  cases hp : k.point with
  | putIfAbsent => trivial
  | getTable =>
    simp only [hp] at hk ⊢
    obtain ⟨r, hr⟩ := Option.isSome_iff_exists.mp hk
    exact Option.isSome_of_eq_some (hheap _ r hr)
  | put table =>
    simp only [hp] at hk ⊢
    exact hheap _ _ hk
  | get table =>
    simp only [hp] at hk ⊢
    exact ⟨hheap _ _ hk.1, ht _ _ hk.2⟩
  | send dstPort =>
    cases dstPort with
    | none =>
      simp only [hp] at hk ⊢
      exact hk
    | some q =>
      simp only [hp] at hk ⊢
      exact hk.mono ht
  | install q =>
    simp only [hp] at hk ⊢
    exact hk.mono ht

end Sound

/-! ## One operation -/

section Operations

variable {T : Topology H} {service : RuleService} {appId : ApplicationId} [DecidableEq H]
  {t t' : MacAddressTables} {s : Traffic H} {c : Copy H}

/-- A call that has its copy still with it leaves the rest to go on. -/
theorem whole_perm {k : Call H} (hk : k ∈ s.calls) (hw : k.waits = some c) :
    (whole s t).inFlight.Perm
      (c :: (s.shared.net.inFlight ++ (s.calls.erase k).filterMap Call.waits)) := by
  have hperm := s.carried_perm Call.waits hk
  rw [hw, Option.toList_some, List.singleton_append] at hperm
  exact (hperm.append_left _).trans List.perm_middle

omit [DecidableEq H] in
/-- The rules point at the hosts over more tables as well. -/
theorem RulesPoint.mono {rules : List FlowRule} (hr : RulesPoint T appId ⟨t, rules⟩)
    (ht : Extends t t') : RulesPoint T appId ⟨t', rules⟩ :=
  fun r hmem => RulePoints.mono (hr r hmem) ht

/-- An operation on the heap: the call goes from one point to the next with its copy. -/
theorem Threaded.proceed (hs : Threaded T appId t s) {p p' : CallPoint} {heap' : TableHeap}
    (hk : ⟨c, p⟩ ∈ s.calls) (hp : (⟨c, p⟩ : Call H).waits = some c)
    (hp' : (⟨c, p'⟩ : Call H).waits = some c) (hrep : Represents t' heap')
    (ht : TablesPoint T t') (hext : Extends t t')
    (hget : ∀ d r, s.shared.heap.get d = some r → heap'.get d = some r)
    (hsound : (⟨c, p'⟩ : Call H).Sound T appId t' heap') :
    Threaded T appId t'
      ⟨{ s.shared with heap := heap' }, ⟨c, p'⟩ :: s.calls.erase ⟨c, p⟩⟩ := by
  refine ⟨hrep, ?_, s.forall_calls (some ⟨c, p'⟩) hs.sound
    (fun k hk => hk.mono hext hget) ?_⟩
  · refine (hs.delivers.withBridge (hs.delivers.points.rules.mono hext) ht).of_perm rfl rfl ?_ rfl
    refine List.Perm.trans ?_ (whole_perm hk hp).symm
    rw [whole, waiting, Threads.carried, List.filterMap_cons_some hp']
    exact List.perm_middle
  · rintro k ⟨⟩
    exact hsound

/-- A copy that is with a call moves away from its sender. -/
theorem Threaded.copyLeaves (hs : Threaded T appId t s) {k : Call H} (hk : k ∈ s.calls)
    (hw : k.waits = some c) : CopyLeaves T c :=
  hs.delivers.points.copies c ((whole_perm hk hw).mem_iff.mpr List.mem_cons_self)

/-- `macAddressTables.putIfAbsent(switchId, Maps.newConcurrentMap())`. -/
theorem Threaded.putIfAbsent (hs : Threaded T appId t s) (hk : ⟨c, .putIfAbsent⟩ ∈ s.calls) :
    Threaded T appId t
      ⟨{ s.shared with heap := s.shared.heap.putIfAbsentNew c.cp.deviceId },
        ⟨c, .getTable⟩ :: s.calls.erase ⟨c, .putIfAbsent⟩⟩ := by
  refine hs.proceed hk rfl rfl (fun d m => ?_) hs.delivers.points.tables (fun _ _ h => h)
    (fun d r hr => NestedMap.get_putIfAbsentNew_of_some hr) NestedMap.get_putIfAbsentNew_isSome
  rw [NestedMap.entry_putIfAbsentNew]
  exact hs.represents d m

/-- `macAddressTables.get(switchId)`. -/
theorem Threaded.getTable (hs : Threaded T appId t s) {r : ℕ} (hk : ⟨c, .getTable⟩ ∈ s.calls)
    (hr : s.shared.heap.get c.cp.deviceId = some r) :
    Threaded T appId t ⟨s.shared, ⟨c, .put r⟩ :: s.calls.erase ⟨c, .getTable⟩⟩ :=
  hs.proceed hk rfl rfl hs.represents hs.delivers.points.tables (fun _ _ h => h)
    (fun _ _ h => h) hr

variable (service) in
/-- `macAddressTable.put(srcMac, srcPort)`: the tables are as a call of `process` leaves them. -/
theorem Threaded.put (hs : Threaded T appId t s) {r : ℕ} (hk : ⟨c, .put r⟩ ∈ s.calls) :
    Threaded T appId (process service appId t ⟨c.cp, c.frame.eth⟩).1
      ⟨{ s.shared with heap := s.shared.heap.putAt r c.frame.eth.sourceMAC c.cp.port },
        ⟨c, .get r⟩ :: s.calls.erase ⟨c, .put r⟩⟩ := by
  have hl := hs.copyLeaves hk rfl
  have hh : Handled (⟨c.cp, c.frame.eth⟩ : InboundPacket).parsed := hl.2.2.2
  have hr : s.shared.heap.get c.cp.deviceId = some r := hs.sound _ hk
  refine hs.proceed hk rfl rfl (fun d m => ?_) (hs.delivers.points.tables.process hl)
    (extends_process service appId t _) (fun d r h => h) ⟨hr, ?_⟩
  · rw [portOf_process service appId t hh, NestedMap.entry_putAt hr, hs.represents]
  · exact Option.isSome_of_eq_some (portOf_process_source service appId t hh)

/-- `macAddressTable.get(dstMac)`: it finds the source, and what else it finds leads to the
destination. -/
theorem Threaded.get (hs : Threaded T appId t s) {r : ℕ} (hk : ⟨c, .get r⟩ ∈ s.calls) :
    Threaded T appId t
      ⟨s.shared, ⟨c, .send (s.shared.heap.getAt r c.frame.eth.destinationMAC)⟩ ::
        s.calls.erase ⟨c, .get r⟩⟩ := by
  obtain ⟨hr, hsrc⟩ : s.shared.heap.get c.cp.deviceId = some r ∧
      (portOf t c.cp.deviceId c.frame.eth.sourceMAC).isSome := hs.sound _ hk
  refine hs.proceed hk rfl rfl hs.represents hs.delivers.points.tables (fun _ _ h => h)
    (fun _ _ h => h) ?_
  rw [NestedMap.getAt_eq_entry hr, ← hs.represents]
  cases hq : portOf t c.cp.deviceId c.frame.eth.destinationMAC with
  | none =>
    intro (heq : c.frame.eth.destinationMAC = c.frame.eth.sourceMAC)
    rw [← heq, hq] at hsrc
    simp at hsrc
  | some q =>
    obtain ⟨h, hmac, hto⟩ := hs.delivers.points.tables _ _ q hq
    exact ⟨_, _, q, h, rfl, hmac, hto, hsrc, Option.isSome_of_eq_some hq⟩

omit [DecidableEq H] in
variable (service) in
/-- **What a call puts out, an undisturbed call would put out** in some state that points at the
hosts: with the rule that the call will install, or with empty tables. -/
theorem exists_out {dstPort : Option PortNumber} (hl : CopyLeaves T c) (ht : TablesPoint T t)
    {heap : TableHeap} (hk : (⟨c, .send dstPort⟩ : Call H).Sound T appId t heap) :
    ∃ b, TablesPoint T b.macAddressTables ∧ RulesPoint T appId b ∧
      cachedOut service appId b (.frame ⟨c.cp, c.frame.eth⟩) = some (outputTo dstPort) := by
  cases dstPort with
  | some q =>
    refine ⟨⟨t, [pairRule appId c.cp.deviceId c.frame.eth.sourceMAC c.frame.eth.destinationMAC q]⟩,
      ht, fun r hr => ?_, ?_⟩
    · rw [List.mem_singleton.mp hr]
      exact hk
    · have hmatch : (pairSelector c.frame.eth.sourceMAC c.frame.eth.destinationMAC).matches
          c.frame.eth = true := matches_pairSelector.mpr ⟨rfl, rfl⟩
      simp [cachedOut, hit, pairRule, hmatch, outputTo]
  | none =>
    refine ⟨⟨∅, []⟩, fun d m q hq => by simp at hq, fun r hr => by simp at hr, ?_⟩
    have hne : c.frame.eth.destinationMAC ≠ c.frame.eth.sourceMAC := hk
    have hmiss : hit ⟨∅, []⟩ ⟨c.cp, c.frame.eth⟩ = none := rfl
    simp only [cachedOut, hmiss]
    rw [(process_reaction service appId ∅ hl.2.2.2).1, portOf_process service appId ∅ hl.2.2.2,
      if_neg fun h => hne h.2, portOf_empty]

/-- `context.send()`: the copy leaves the call. -/
theorem Threaded.send (hs : Threaded T appId t s) {dstPort : Option PortNumber}
    (hk : ⟨c, .send dstPort⟩ ∈ s.calls) :
    Threaded T appId t
      ⟨{ s.shared with net := s.shared.net.emit T c (outputTo dstPort) },
        (dstPort.map fun q => ⟨c, .install q⟩).toList ++ s.calls.erase ⟨c, .send dstPort⟩⟩ := by
  have hsound := hs.sound _ hk
  obtain ⟨b, ht, hr, hout⟩ := exists_out .flowRuleService (hs.copyLeaves hk rfl)
    hs.delivers.points.tables hsound
  refine ⟨hs.represents, ?_, s.forall_calls _ hs.sound (fun _ hk => hk) fun k hnext => ?_⟩
  · -- bring the copy to the front, put it out from there, and put what it makes in its place
    have hfront : Delivers T appId { whole s t with
        inFlight := c :: (s.shared.net.inFlight ++
          (s.calls.erase ⟨c, .send dstPort⟩).filterMap Call.waits) } :=
      hs.delivers.of_perm rfl rfl (whole_perm hk rfl).symm rfl
    have hemit := hfront.out hr ht List.mem_cons_self hout
    refine hemit.of_perm rfl rfl ?_ rfl
    have hrest : ((dstPort.map fun q => (⟨c, .install q⟩ : Call H)).toList ++
        s.calls.erase ⟨c, .send dstPort⟩).filterMap Call.waits =
        (s.calls.erase ⟨c, .send dstPort⟩).filterMap Call.waits := by
      cases dstPort <;> rfl
    simp only [whole, waiting, Threads.carried, Net.emit, hrest, List.erase_cons_head]
    rw [List.append_assoc, List.append_assoc]
    exact List.perm_append_comm.append_left _
  · obtain ⟨q, rfl, rfl⟩ := Option.map_eq_some_iff.mp hnext
    exact hsound

/-- `flowObjectiveService.forward(..)` or `flowRuleService.applyFlowRules(..)`. -/
theorem Threaded.install (hs : Threaded T appId t s) {q : PortNumber}
    (hk : ⟨c, .install q⟩ ∈ s.calls) :
    Threaded T appId t
      ⟨{ s.shared with
          net := s.shared.net.install (ruleRequest service appId c.cp.deviceId
            c.frame.eth.sourceMAC c.frame.eth.destinationMAC q) },
        s.calls.erase ⟨c, .install q⟩⟩ := by
  refine ⟨hs.represents, ?_, fun k hmem => hs.sound k (List.mem_of_mem_erase hmem)⟩
  have hrules : RulesPoint T appId ⟨t, installRule s.shared.net.bridge.liveRules
      (pairRule appId c.cp.deviceId c.frame.eth.sourceMAC c.frame.eth.destinationMAC q)⟩ := by
    intro r hr
    rcases List.mem_cons.mp hr with rfl | hr
    · exact hs.sound _ hk
    · exact hs.delivers.points.rules r (List.mem_of_mem_filter hr)
  refine (hs.delivers.withBridge hrules hs.delivers.points.tables).of_perm ?_ rfl ?_ rfl
  · simp only [whole, Net.install, toFlowRule_ruleRequest]
  · exact ((s.carried_perm Call.waits hk).symm).append_left _

end Operations

/-! ## Every interleaving -/

section Runs

variable {T : Topology H} {service : RuleService} {appId : ApplicationId} [DecidableEq H]
  {t : MacAddressTables} {s : Traffic H}

/-- **Every operation of a call keeps the invariant.** -/
theorem Threaded.operate (hs : Threaded T appId t s) {k : Call H} (hk : k ∈ s.calls) :
    ∃ t', Extends t t' ∧ Threaded T appId t' (trafficNext T service appId s (.call k)) := by
  have hrefl : Extends t t := fun _ _ h => h
  rw [Bridge.trafficNext, Threads.call_of_mem hk]
  obtain ⟨c, p⟩ := k
  cases p with
  | putIfAbsent =>
    have hh := (hs.copyLeaves hk rfl).2.2.2.not_ignored
    refine ⟨t, hrefl, ?_⟩
    simp only [Bridge.operate, if_neg hh]
    exact hs.putIfAbsent hk
  | getTable =>
    -- the table is there, so there is a next operation
    obtain ⟨r, hr⟩ := Option.isSome_iff_exists.mp (hs.sound _ hk)
    refine ⟨t, hrefl, ?_⟩
    simp only [Bridge.operate, hr]
    exact hs.getTable hk hr
  | put r =>
    exact ⟨_, extends_process service appId t ⟨c.cp, c.frame.eth⟩, hs.put service hk⟩
  | get r => exact ⟨t, hrefl, hs.get hk⟩
  | send dstPort => exact ⟨t, hrefl, hs.send hk⟩
  | install q => exact ⟨t, hrefl, hs.install hk⟩

/-- A frame that hits no rule becomes a call. -/
theorem Threaded.packetIn (hs : Threaded T appId t s) {c : Copy H}
    (hc : c ∈ s.shared.net.inFlight) :
    Threaded T appId t
      ⟨{ s.shared with net := { s.shared.net with inFlight := s.shared.net.inFlight.erase c } },
        ⟨c, .putIfAbsent⟩ :: s.calls⟩ := by
  refine ⟨hs.represents, hs.delivers.of_perm rfl rfl ?_ rfl, fun k hk => ?_⟩
  · refine List.Perm.trans List.perm_middle ?_
    exact ((List.perm_cons_erase hc).symm).append_right (waiting s)
  · rcases List.mem_cons.mp hk with rfl | hk
    · trivial
    · exact hs.sound k hk

/-- A frame that hits a rule is forwarded by the switch, and no call sees it. -/
theorem Threaded.forward (hs : Threaded T appId t s) {c : Copy H} {r : FlowRule}
    (hr : hit s.shared.net.bridge ⟨c.cp, c.frame.eth⟩ = some r) :
    Threaded T appId t
      { s with
        shared := { s.shared with net := netNext T service appId s.shared.net (.hop c) } } := by
  by_cases hc : c ∈ s.shared.net.inFlight
  · have hr' : hit (whole s t).bridge ⟨c.cp, c.frame.eth⟩ = some r := hr
    have hmem : c ∈ (whole s t).inFlight := List.mem_append_left _ hc
    have hhop : Delivers T appId (netNext T service appId (whole s t) (.hop c)) :=
      hs.delivers.netNext (.hop c)
    rw [netNext_hop_of_mem hmem] at hhop
    rw [netNext_hop_of_mem hc]
    simp only [cachedNext, cachedOut, hr'] at hhop
    simp only [cachedNext, cachedOut, hr]
    refine ⟨hs.represents, hhop.of_perm rfl rfl ?_ rfl, hs.sound⟩
    rw [whole, whole, List.erase_append_left _ hc, List.append_assoc,
      List.append_assoc]
    exact List.perm_append_comm.append_left _
  · rw [netNext_hop_of_notMem hc]
    exact hs

variable (service) in
/-- **Every step keeps the invariant**, and the tables forget no address. -/
theorem Threaded.trafficNext (hs : Threaded T appId t s) (e : TrafficEvent H) :
    ∃ t', Extends t t' ∧ Threaded T appId t' (trafficNext T service appId s e) := by
  have hrefl : Extends t t := fun _ _ h => h
  cases e with
  | call k =>
    by_cases hk : k ∈ s.calls
    · exact hs.operate hk
    · exact ⟨t, hrefl, by rw [Bridge.trafficNext, Threads.call_of_notMem hk]; exact hs⟩
  | net e =>
    refine ⟨t, hrefl, ?_⟩
    cases e with
    | hop c =>
      cases hr : hit s.shared.net.bridge ⟨c.cp, c.frame.eth⟩ with
      | some r =>
        simp only [Bridge.trafficNext, hr]
        exact hs.forward hr
      | none =>
        simp only [Bridge.trafficNext, hr]
        split_ifs with hc
        · exact hs.packetIn hc
        · exact hs
    | expire r =>
      have hexpire : Delivers T appId (netNext T service appId (whole s t) (.expire r)) :=
        hs.delivers.netNext (.expire r)
      exact ⟨hs.represents, hexpire, hs.sound⟩
    | inject h eth =>
      have hinject : Delivers T appId (netNext T service appId (whole s t) (.inject h eth)) :=
        hs.delivers.netNext (.inject h eth)
      refine ⟨hs.represents, hinject.of_perm ?_ ?_ ?_ ?_, hs.sound⟩ <;>
        simp only [Bridge.trafficNext, netNext, whole] <;> split_ifs <;> rfl

theorem threaded_init : Threaded T appId ∅ (Traffic.init : Traffic H) := by
  refine ⟨fun d m => by simp [Traffic.init], ⟨pointsAtHosts_init, ?_, ?_, ?_⟩, ?_⟩
  · constructor <;> simp [whole, waiting, Threads.carried, Traffic.init, Net.init]
  · simp [Once, whole, Traffic.init, Net.init]
  · simp [whole, Traffic.init, Net.init]
  · simp [Traffic.init]

variable (service) in
theorem Threaded.run (hs : Threaded T appId t s) (es : List (TrafficEvent H)) :
    ∃ t', Extends t t' ∧ Threaded T appId t' (run (Bridge.trafficNext T service appId) s es) := by
  refine run_invariant (P := fun s' => ∃ t', Extends t t' ∧ Threaded T appId t' s') ?_
    ⟨t, fun _ _ h => h, hs⟩ es
  rintro s' e ⟨t', hext, hs'⟩
  obtain ⟨t'', hext', hs''⟩ := hs'.trafficNext service e
  exact ⟨t'', fun d m hm => hext' d m (hext d m hm), hs''⟩

variable (T service appId) in
theorem threaded_run (es : List (TrafficEvent H)) :
    ∃ t, Threaded T appId t (Runs.run (Bridge.trafficNext T service appId) Traffic.init es) := by
  obtain ⟨t, -, ht⟩ := threaded_init.run service es
  exact ⟨t, ht⟩

end Runs

/-! ## The tables are shared safely -/

/-- **A call works on the table of its switch.** In every interleaving: a call that is about to
look the table of its switch up finds one, and the table that a call holds is, and stays, the one
that every other call on the switch finds. -/
theorem table_held_is_current [DecidableEq H] (T : Topology H) (service : RuleService)
    (appId : ApplicationId) (es : List (TrafficEvent H)) :
    let s := run (trafficNext T service appId) Traffic.init es
    ∀ k ∈ s.calls, (k.point = .getTable → (s.shared.heap.get k.copy.cp.deviceId).isSome) ∧
      ∀ r, k.point = .put r ∨ k.point = .get r → s.shared.heap.get k.copy.cp.deviceId = some r := by
  intro s k hk
  obtain ⟨t, hs⟩ := threaded_run T service appId es
  have hsound := hs.sound k hk
  unfold Call.Sound at hsound
  refine ⟨fun hp => ?_, fun r hp => ?_⟩
  · rw [hp] at hsound
    exact hsound
  · rcases hp with hp | hp
    · rw [hp] at hsound
      exact hsound
    · rw [hp] at hsound
      exact hsound.1

/-- **No update is lost.** Once a call has made its `put`, the table of its switch has the source of
its frame at the port the frame came in on, whatever other calls do at the same time and later, and
whether or not they found the switch without a table. -/
theorem no_update_lost [DecidableEq H] (T : Topology H) (service : RuleService)
    (appId : ApplicationId) (es₁ es₂ : List (TrafficEvent H)) (s₁ s₂ : Traffic H) (c : Copy H)
    (r : ℕ) (hs₁ : s₁ = run (trafficNext T service appId) Traffic.init es₁)
    (hput : ⟨c, .put r⟩ ∈ s₁.calls)
    (hs₂ : s₂ = run (trafficNext T service appId) s₁ (.call ⟨c, .put r⟩ :: es₂)) :
    s₂.shared.heap.entry c.cp.deviceId c.frame.eth.sourceMAC = some c.cp.port := by
  obtain ⟨t, ht⟩ := threaded_run T service appId es₁
  rw [← hs₁] at ht
  have hl := ht.copyLeaves hput rfl
  -- the entry is there after the operation, and entries stay
  have hafter : Threaded T appId (process service appId t ⟨c.cp, c.frame.eth⟩).1
      (trafficNext T service appId s₁ (.call ⟨c, .put r⟩)) := by
    rw [trafficNext, Threads.call_of_mem hput]
    exact ht.put service hput
  obtain ⟨t', hext, ht'⟩ := hafter.run service es₂
  rw [← run_cons, ← hs₂] at ht'
  have hrec := hext _ _ (Option.isSome_of_eq_some (portOf_process_source service appId t hl.2.2.2))
  obtain ⟨q, hq⟩ := Option.isSome_iff_exists.mp hrec
  -- and it can only be for the port towards the sender
  obtain ⟨h, hmac, hto⟩ := ht'.delivers.points.tables _ _ q hq
  obtain rfl : h = c.frame.sender := T.mac_injective (hmac.trans hl.2.2.1)
  rw [← ht'.represents, hq, hto.unique hl.1]

/-- Two hosts on two switches send to each other. The frame `f` has crossed the first switch when
the frame `g` arrives at the second, so two calls find the second switch without a table. -/
def meetingCalls : List (TrafficEvent Bool) :=
  let f : Frame Bool := ⟨0, false, ⟨⟨1⟩, ⟨2⟩, .arp ⟨ARP.OP_REQUEST, ⟨1⟩, ⟨1⟩, ⟨0⟩, ⟨2⟩⟩⟩⟩
  let g : Frame Bool := ⟨1, true, ⟨⟨2⟩, ⟨1⟩, .arp ⟨ARP.OP_REQUEST, ⟨2⟩, ⟨2⟩, ⟨0⟩, ⟨1⟩⟩⟩⟩
  let c : Copy Bool := ⟨f, ⟨⟨1⟩, ⟨1⟩⟩⟩
  let c' : Copy Bool := ⟨f, ⟨⟨2⟩, ⟨2⟩⟩⟩
  let d : Copy Bool := ⟨g, ⟨⟨2⟩, ⟨1⟩⟩⟩
  [.net (.inject false f.eth), .net (.inject true g.eth), .net (.hop c), .call ⟨c, .putIfAbsent⟩,
    .call ⟨c, .getTable⟩, .call ⟨c, .put 0⟩, .call ⟨c, .get 0⟩, .call ⟨c, .send none⟩,
    .net (.hop c'), .net (.hop d), .call ⟨c', .putIfAbsent⟩, .call ⟨d, .putIfAbsent⟩,
    .call ⟨d, .getTable⟩, .call ⟨c', .getTable⟩]

/-- What one call puts into the table that both have found is there after the other's `put`. -/
theorem no_update_lost_twoSwitches :
    let f : Frame Bool := ⟨0, false, ⟨⟨1⟩, ⟨2⟩, .arp ⟨ARP.OP_REQUEST, ⟨1⟩, ⟨1⟩, ⟨0⟩, ⟨2⟩⟩⟩⟩
    let g : Frame Bool := ⟨1, true, ⟨⟨2⟩, ⟨1⟩, .arp ⟨ARP.OP_REQUEST, ⟨2⟩, ⟨2⟩, ⟨0⟩, ⟨1⟩⟩⟩⟩
    let next := trafficNext twoSwitches .flowRuleService ⟨"nctu.winlab.bridge"⟩
    let s₁ := run next Traffic.init meetingCalls
    let s₂ := run next s₁ [.call ⟨⟨f, ⟨⟨2⟩, ⟨2⟩⟩⟩, .put 1⟩, .call ⟨⟨g, ⟨⟨2⟩, ⟨1⟩⟩⟩, .put 1⟩]
    s₂.shared.heap.entry ⟨2⟩ ⟨1⟩ = some ⟨2⟩ := by
  intro f g next s₁ s₂
  exact no_update_lost twoSwitches .flowRuleService ⟨"nctu.winlab.bridge"⟩ meetingCalls _ s₁ s₂
    ⟨f, ⟨⟨2⟩, ⟨2⟩⟩⟩ 1 rfl (by decide) rfl

/-! ## Delivery -/

/-- **Exactly-once delivery under concurrent calls.** On every tree of switches, by every
interleaving of injections, arrivals, expiries and single operations of the calls: a frame of which
no copy is in flight or with a call was received exactly once by every host it is for, and not by
its sender. -/
theorem delivered_exactly_once_concurrently [DecidableEq H] (T : Topology H)
    (service : RuleService) (appId : ApplicationId) (es : List (TrafficEvent H)) (s : Traffic H)
    (hs : s = run (trafficNext T service appId) Traffic.init es) (f : Frame H)
    (hf : f ∈ s.shared.net.injected)
    (hdone : ∀ c ∈ s.shared.net.inFlight ++ waiting s, c.frame ≠ f) :
    (∀ B, IsFor T f B → s.shared.net.received.count (B, f) = 1) ∧
      (f.sender, f) ∉ s.shared.net.received := by
  obtain ⟨t, ht⟩ := threaded_run T service appId es
  rw [← hs] at ht
  refine ⟨fun B hB => ?_, fun hown => ht.delivers.senders _ hown rfl⟩
  have hone := ht.delivers.once f hf B hB
  have hgone : pending T B f (whole s t).inFlight = 0 := pending_eq_zero hdone
  rwa [hgone, Nat.zero_add] at hone

/-- Each of the two calls finds what the other has recorded, which no order of undisturbed calls
allows, and both frames arrive. -/
theorem delivered_exactly_once_concurrently_twoSwitches :
    let f : Frame Bool := ⟨0, false, ⟨⟨1⟩, ⟨2⟩, .arp ⟨ARP.OP_REQUEST, ⟨1⟩, ⟨1⟩, ⟨0⟩, ⟨2⟩⟩⟩⟩
    let g : Frame Bool := ⟨1, true, ⟨⟨2⟩, ⟨1⟩, .arp ⟨ARP.OP_REQUEST, ⟨2⟩, ⟨2⟩, ⟨0⟩, ⟨1⟩⟩⟩⟩
    let c : Copy Bool := ⟨f, ⟨⟨2⟩, ⟨2⟩⟩⟩
    let d : Copy Bool := ⟨g, ⟨⟨2⟩, ⟨1⟩⟩⟩
    let s := run (trafficNext twoSwitches .flowRuleService ⟨"nctu.winlab.bridge"⟩) Traffic.init
      (meetingCalls ++ [.call ⟨c, .put 1⟩, .call ⟨d, .put 1⟩, .call ⟨c, .get 1⟩, .call ⟨d, .get 1⟩,
        .call ⟨c, .send (some ⟨1⟩)⟩, .call ⟨d, .send (some ⟨2⟩)⟩])
    s.shared.net.received.count (true, f) = 1 ∧ (false, f) ∉ s.shared.net.received := by
  intro f g c d s
  obtain ⟨hother, hown⟩ := delivered_exactly_once_concurrently twoSwitches .flowRuleService
    ⟨"nctu.winlab.bridge"⟩ _ s rfl f (by decide) (by decide)
  exact ⟨hother true ⟨by decide, Or.inl (by decide)⟩, hown⟩

/-! ## Undisturbed calls -/

/-- The network with the tables `t` where `process` has them. -/
def Net.withTables (s : Net H) (t : MacAddressTables) : Net H :=
  { s with bridge := { s.bridge with macAddressTables := t } }

/-- No call is in progress, and `n` is the network with the tables that the heap holds. -/
def Matches (s : Traffic H) (n : Net H) : Prop :=
  s.calls = [] ∧ ∃ t, Represents t s.shared.heap ∧ n = s.shared.net.withTables t

section Undisturbed

variable {T : Topology H} {service : RuleService} {appId : ApplicationId} [DecidableEq H]
  {t : MacAddressTables} {heap : TableHeap} {net : Net H} {c : Copy H}

variable (T service appId net) in
/-- The operations on the tables, in a row: the call records its source and finds the port of its
destination. -/
theorem exists_run_lookup (hrep : Represents t heap)
    (hh : Handled (⟨c.cp, c.frame.eth⟩ : InboundPacket).parsed) :
    ∃ es heap', Represents (process service appId t ⟨c.cp, c.frame.eth⟩).1 heap' ∧
      run (trafficNext T service appId) ⟨⟨heap, net⟩, [⟨c, .putIfAbsent⟩]⟩ es =
        ⟨⟨heap', net⟩, [⟨c, .send (portOf (process service appId t ⟨c.cp, c.frame.eth⟩).1
          c.cp.deviceId c.frame.eth.destinationMAC)⟩]⟩ := by
  obtain ⟨r, hr⟩ := Option.isSome_iff_exists.mp
    (NestedMap.get_putIfAbsentNew_isSome (m := heap) (k := c.cp.deviceId))
  have hput : Represents (process service appId t ⟨c.cp, c.frame.eth⟩).1
      ((heap.putIfAbsentNew c.cp.deviceId).putAt r c.frame.eth.sourceMAC c.cp.port) := by
    intro d m
    rw [portOf_process service appId t hh, NestedMap.entry_putAt hr,
      NestedMap.entry_putIfAbsentNew, hrep]
  refine ⟨[.call ⟨c, .putIfAbsent⟩, .call ⟨c, .getTable⟩, .call ⟨c, .put r⟩, .call ⟨c, .get r⟩], _,
    hput, ?_⟩
  have hget : ((heap.putIfAbsentNew c.cp.deviceId).putAt r c.frame.eth.sourceMAC c.cp.port).get
      c.cp.deviceId = some r := hr
  simp only [run_cons, run_nil, trafficNext, Threads.call_only, operate, if_neg hh.not_ignored,
    Option.map_some, Option.toList_some, hr, NestedMap.getAt_eq_entry hget, ← hput _ _]

variable (T service appId net c) in
/-- **A call that runs alone** does what `process` does. -/
theorem exists_run_call (hrep : Represents t heap) :
    let b : State := ⟨t, net.bridge.liveRules⟩
    let pkt : InboundPacket := ⟨c.cp, c.frame.eth⟩
    ∃ es, Matches (run (trafficNext T service appId) ⟨⟨heap, net⟩, [⟨c, .putIfAbsent⟩]⟩ es)
      { net with
        bridge := packetIn service appId b pkt
        inFlight := net.inFlight ++ (outPorts T c.cp (process service appId t pkt).2.send).filterMap
          (forwarded T c.frame c.cp.deviceId)
        received := net.received ++ (outPorts T c.cp (process service appId t pkt).2.send).filterMap
          (delivered T c.frame c.cp.deviceId) } := by
  intro b pkt
  by_cases hh : Handled pkt.parsed
  · obtain ⟨es, heap', hrep', hrun⟩ := exists_run_lookup T service appId net hrep hh
    obtain ⟨hsend, hinstall⟩ := process_reaction service appId t hh
    cases hq : portOf (process service appId t pkt).1 c.cp.deviceId c.frame.eth.destinationMAC with
    | none =>
      refine ⟨es ++ [.call ⟨c, .send none⟩], ?_⟩
      rw [run_snoc, hrun, hq, trafficNext, Threads.call_only]
      refine ⟨rfl, _, hrep', ?_⟩
      simp [Net.withTables, operate, Net.emit, packetIn, b, hsend, hinstall, pkt, hq]
    | some q =>
      refine ⟨es ++ [.call ⟨c, .send (some q)⟩, .call ⟨c, .install q⟩], ?_⟩
      rw [run_append, hrun, hq, run_cons, run_cons, run_nil]
      simp only [trafficNext, Threads.call_only, operate, Option.map_some, Option.toList_some]
      refine ⟨rfl, _, hrep', ?_⟩
      simp [Net.withTables, Net.emit, Net.install, packetIn, b, hsend, hinstall, pkt, hq]
  · -- a frame of another type: the call returns at once
    refine ⟨[.call ⟨c, .putIfAbsent⟩], ?_⟩
    have hign : c.frame.eth.getEtherType ≠ Ethernet.TYPE_ARP ∧
        c.frame.eth.getEtherType ≠ Ethernet.TYPE_IPV4 := not_or.mp hh
    rw [run_cons, run_nil, trafficNext, Threads.call_only]
    simp only [operate, if_pos hign]
    refine ⟨rfl, t, hrep, ?_⟩
    rw [packetIn_of_not_handled hh, process_of_not_handled service appId t hh]
    simp [Net.withTables, outPorts, b]

/-- **A step of the network with atomic calls** is a sequence of steps here. -/
theorem Matches.netNext {s : Traffic H} {n : Net H} (hm : Matches s n) (e : NetEvent H) :
    ∃ es, Matches (run (trafficNext T service appId) s es) (netNext T service appId n e) := by
  obtain ⟨⟨heap, net⟩, calls⟩ := s
  obtain ⟨rfl, t, hrep, rfl⟩ := hm
  cases e with
  | expire r => exact ⟨[.net (.expire r)], rfl, t, hrep, rfl⟩
  | inject h eth =>
    refine ⟨[.net (.inject h eth)], rfl, t, hrep, ?_⟩
    simp only [run_cons, run_nil, trafficNext, Bridge.netNext, Net.withTables]
    split_ifs <;> rfl
  | hop c =>
    by_cases hc : c ∈ net.inFlight
    · have hmem : c ∈ (net.withTables t).inFlight := hc
      rw [netNext_hop_of_mem hmem]
      cases hr : hit net.bridge ⟨c.cp, c.frame.eth⟩ with
      | some r =>
        -- the rule forwards the copy here as there
        have hr' : hit (net.withTables t).bridge ⟨c.cp, c.frame.eth⟩ =
          some r := hr
        refine ⟨[.net (.hop c)], ?_⟩
        simp only [run_cons, run_nil, trafficNext, hr]
        refine ⟨rfl, t, hrep, ?_⟩
        rw [netNext_hop_of_mem hc]
        simp only [cachedNext, cachedOut, hr, hr']
        rfl
      | none =>
        have hr' : hit (net.withTables t).bridge ⟨c.cp, c.frame.eth⟩ =
          none := hr
        obtain ⟨es, hes⟩ := exists_run_call T service appId
          { net with inFlight := net.inFlight.erase c } c hrep
        refine ⟨.net (.hop c) :: es, ?_⟩
        rw [run_cons, trafficNext, hr]
        simp only [Moves, hc, if_true, cachedNext, cachedOut, hr']
        exact hes
    · refine ⟨[], rfl, t, hrep, ?_⟩
      exact netNext_hop_of_notMem hc

end Undisturbed

/-- **Atomic calls are one way to interleave.** Every run of the network in which `process` is one
step is a run here, in which every call finishes before the next operation of another: it ends with
no call in progress, with the heap holding the same tables, and with the same network. -/
theorem atomic_runs_are_interleavings [DecidableEq H] (T : Topology H) (service : RuleService)
    (appId : ApplicationId) (es : List (NetEvent H)) :
    ∃ es', Matches (run (trafficNext T service appId) Traffic.init es')
      (run (netNext T service appId) Net.init es) := by
  induction es using List.reverseRecOn with
  | nil => exact ⟨[], rfl, ∅, fun d m => by simp [Traffic.init], rfl⟩
  | append_singleton es e ih =>
    obtain ⟨es', hes'⟩ := ih
    obtain ⟨es'', hes''⟩ := hes'.netNext e
    refine ⟨es' ++ es'', ?_⟩
    rw [run_append, run_snoc]
    exact hes''

end Bridge
