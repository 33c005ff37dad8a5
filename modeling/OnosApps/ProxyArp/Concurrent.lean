import OnosApps.ProxyArp.Resolution
import OnosApps.Runs.Threads

/-!
# Proxy ARP under concurrent calls

The packet processor is called for several packets at a time, and the calls share the table. A call
records the sender of its packet, asks whether the target is there, and then reads the entry or
sends the request on, while other calls record senders. So a call can answer from what another has
recorded in the meantime, and it can send a request on for an address that has become known since
it asked.

Entries are never overwritten or removed. So a call that was told that the target is there finds it,
the answers are true, every address that was asked for becomes known, and a request that comes in
when the address is known is answered exactly once.

## Main definitions

* `CallPoint`, `operate`: the operations of `process`, one by one
* `LanTraffic`, `LanTrafficEvent`, `lanTrafficNext`: the network with calls in progress
* `CallEffect`: what a step does, in terms of hosts
* `Answering`: the invariant

## Main results

* `Answering.effect`: every step has one of the effects
* `resolution_truthful_concurrently`, `sought_known_concurrently`,
  `requests_answered_once_concurrently`: the guarantees, for every interleaving
* `atomic_lan_runs_are_interleavings`: calls that run alone
-/

namespace ProxyArp

open Onos Runs ConcurrentMap

variable {H : Type}

/-! ## Calls in progress -/

/-- The operation that a call of `process` makes next. -/
inductive CallPoint where
  | putIfAbsent
  | containsKey
  | get
  | reply (mac : MacAddress)
  | flood
deriving DecidableEq, Repr

/-- A call of `process`: the packet-in it is about, and how far it has come. -/
structure Call where
  packet : InboundPacket
  point : CallPoint
deriving DecidableEq

/-- `packetService.emit`. -/
def LanState.emit (s : LanState H) (pkts : List (OutboundPacket Ethernet)) : LanState H :=
  { s with arriving := s.arriving ++ pkts.filterMap OutboundPacket.arrives }

section Steps

variable (L : Lan H) (services : Services)

/-- One operation of `process`: the network after it, and the call at its next point, unless it has
returned or thrown. -/
def operate (s : LanState H) (k : Call) : LanState H × Option Call :=
  let ethPkt := k.packet.parsed
  let cp := k.packet.receivedFrom
  match ethPkt.payload with
  | .arp arp =>
    let dstIp := arp.targetProtocolAddress
    match k.point with
    | .putIfAbsent =>
      ({ s with arpTable := s.arpTable.putIfAbsent arp.senderProtocolAddress ethPkt.sourceMAC },
        -- a reply is only logged
        if arp.opCode = ARP.OP_REQUEST then some ⟨k.packet, .containsKey⟩ else none)
    | .containsKey =>
      (s, some ⟨k.packet, if (s.arpTable.lookup dstIp).isSome then .get else .flood⟩)
    -- without an entry, the reply could not be built
    | .get => (s, (s.arpTable.lookup dstIp).map fun mac => ⟨k.packet, .reply mac⟩)
    | .reply mac =>
      (s.emit [outboundTo cp (.wrap (services.buildArpReply dstIp mac ethPkt))], none)
    | .flood =>
      (s.emit ((L.edgePoints.filter (services.compareTo · cp ≠ 0)).map fun point =>
        outboundTo point (.unparsed ethPkt)), none)
  | _ => (s, none)

/-- The network with calls in progress. -/
abbrev LanTraffic (H : Type) := Threads (LanState H) Call

def LanTraffic.init : LanTraffic H := ⟨LanState.init, []⟩

inductive LanTrafficEvent (H : Type) where
  | lan (e : LanEvent H)
  /-- A call makes its next operation. -/
  | call (k : Call)

/-- One step: a packet-in becomes a call, and a call makes its next operation. -/
def lanTrafficNext (s : LanTraffic H) : LanTrafficEvent H → LanTraffic H
  | .lan (.handle pkt) =>
    if pkt ∈ s.shared.packetIns then
      ⟨{ s.shared with packetIns := s.shared.packetIns.erase pkt },
        ⟨pkt, .putIfAbsent⟩ :: s.calls⟩
    else s
  | .lan e => { s with shared := lanNext L services s.shared e }
  | .call k => s.call (operate L services) k

end Steps

/-! ## What a step does -/

/-- The network in which the packet-ins that are with a call are still on their way. -/
def whole (s : LanTraffic H) : LanState H :=
  { s.shared with packetIns := s.shared.packetIns ++ s.carried fun k => some k.packet }

/-- What a step does, in terms of hosts: what a step with atomic calls does, or a call that has not
ended records its sender, or a call sends on one of the requests `F`. -/
inductive CallEffect (L : Lan H) (F : H × Ip4Address → Prop) (s : LanState H) :
    LanState H → Prop where
  | atomic {s' : LanState H} (he : Effect L s s') : CallEffect L F s s'
  | early (h : H) : CallEffect L F s { s with arpTable := L.learn s.arpTable h }
  | late (h : H) (T : Ip4Address) (hmem : ⟨L.point h, L.request h T⟩ ∈ s.packetIns)
      (hF : F (h, T)) :
    CallEffect L F s { s with
      arpTable := L.learn s.arpTable h
      packetIns := s.packetIns.erase ⟨L.point h, L.request h T⟩
      arriving := s.arriving ++
        (L.edgePoints.filter (· ≠ L.point h)).map fun p => (p, L.request h T) }

/-- The two differ in the order of the packet-ins only. -/
structure Alike (s s' : LanState H) : Prop where
  arpTable : s.arpTable = s'.arpTable
  packetIns : s.packetIns.Perm s'.packetIns
  arriving : s.arriving = s'.arriving
  asked : s.asked = s'.asked
  answers : s.answers = s'.answers

/-- What a call has established before its next operation: its packet is the request of a host,
whose address is known, and what it was told about the target is so; the requests that calls are
about to send on are among `F`. -/
def Call.Sound (L : Lan H) (F : H × Ip4Address → Prop) (t : ArpTable) (k : Call) : Prop :=
  k.point = .putIfAbsent ∨
    ∃ h T, k.packet = ⟨L.point h, L.request h T⟩ ∧ (t.lookup (L.ip h)).isSome ∧
      match k.point with
      | .putIfAbsent | .containsKey => True
      | .get => (t.lookup T).isSome
      | .reply mac => t.lookup T = some mac
      | .flood => F (h, T)

/-- With the packet-ins that are with a call, the network is truthful and the addresses that were
asked for are known or come; and every call may rely on what it has established. -/
structure Answering (L : Lan H) (F : H × Ip4Address → Prop) (s : LanTraffic H) : Prop where
  truthful : Truthful L (whole s)
  sought : Sought L (whole s)
  sound : ∀ k ∈ s.calls, k.Sound L F s.shared.arpTable

section Effects

variable {L : Lan H} {services : Services} {F : H × Ip4Address → Prop} {s s' : LanState H}
  {t t' : ArpTable} {h : H} {T : Ip4Address} {mac : MacAddress}

/-- A host that is known teaches nothing. -/
theorem learn_of_known (ht : (t.lookup (L.ip h)).isSome) : L.learn t h = t :=
  if_pos (Finmap.lookup_isSome.mp ht)

/-- `t'` has the entries of `t`. -/
def Extends (t t' : ArpTable) : Prop :=
  ∀ T mac, t.lookup T = some mac → t'.lookup T = some mac

theorem extends_learn (t : ArpTable) (h : H) : Extends t (L.learn t h) :=
  fun _ _ hT => lookup_learn_of_known hT h

theorem Extends.isSome (ht : Extends t t') (hT : (t.lookup T).isSome) : (t'.lookup T).isSome := by
  obtain ⟨mac, hmac⟩ := Option.isSome_iff_exists.mp hT
  exact Option.isSome_of_eq_some (ht T mac hmac)

/-- What a call has established, no operation of another call undoes. -/
theorem Call.Sound.mono {k : Call} (hk : k.Sound L F t) (ht : Extends t t') : k.Sound L F t' := by
  rcases hk with hk | ⟨h, T, hpkt, hsrc, hk⟩
  · exact Or.inl hk
  · refine Or.inr ⟨h, T, hpkt, ht.isSome hsrc, ?_⟩
    cases hp : k.point with
    | putIfAbsent => trivial
    | containsKey => trivial
    | get =>
      simp only [hp] at hk ⊢
      exact ht.isSome hk
    | reply mac =>
      simp only [hp] at hk ⊢
      exact ht T mac hk
    | flood =>
      simp only [hp] at hk ⊢
      exact hk

theorem Alike.truthful (ha : Alike s s') (hs : Truthful L s') : Truthful L s := by
  refine ⟨?_, ?_, ?_, ?_⟩
  · rw [ha.arpTable]
    exact hs.table
  · rw [ha.asked]
    exact fun pkt hpkt => hs.packetIns pkt (ha.packetIns.mem_iff.mp hpkt)
  · rw [ha.arriving, ha.asked]
    exact hs.arriving
  · rw [ha.answers, ha.asked]
    exact hs.answers

theorem Alike.sought (ha : Alike s s') (hs : Sought L s') : Sought L s := by
  intro h h' hasked
  rw [ha.asked] at hasked
  simp only [Comes, ha.arpTable, ha.arriving, ha.packetIns.mem_iff]
  exact hs h h' hasked

/-- **Every effect keeps the network truthful.** -/
theorem CallEffect.truthful (he : CallEffect L F s s') (hs : Truthful L s) : Truthful L s' := by
  cases he with
  | atomic he => exact hs.next he
  | early h => exact ⟨fun _ _ => true_learn hs.table h, hs.packetIns, hs.arriving, hs.answers⟩
  | late h T _ _ => exact hs.flood h T

/-- **Every effect keeps the addresses coming.** -/
theorem CallEffect.sought (he : CallEffect L F s s') (hs : Sought L s) : Sought L s' := by
  cases he with
  | atomic he => exact hs.next he
  | early h₁ =>
    intro h h' hasked
    rcases hs h h' hasked with hknown | hcomes
    · exact Or.inl (isSome_learn hknown h₁)
    · exact Or.inr hcomes
  | late h T _ _ => exact hs.flood h T

theorem CallEffect.known (he : CallEffect L F s s') (hT : s.arpTable.lookup T = some mac) :
    s'.arpTable.lookup T = some mac := by
  cases he with
  | atomic he => exact he.known hT
  | early h => exact lookup_learn_of_known hT h
  | late h _ _ _ => exact lookup_learn_of_known hT h

end Effects

/-! ## One operation -/

section Operations

variable {L : Lan H} {services : Services} {F : H × Ip4Address → Prop} {s : LanTraffic H}
  {h : H} {T : Ip4Address} {pkt : InboundPacket} {p p' : CallPoint}

/-- The operations of a call for the request of a host. -/
theorem operate_request (b : LanState H) (h : H) (T : Ip4Address) (p : CallPoint) :
    let pkt : InboundPacket := ⟨L.point h, L.request h T⟩
    operate L services b ⟨pkt, p⟩ =
      match p with
      | .putIfAbsent =>
        ({ b with arpTable := L.learn b.arpTable h }, some ⟨pkt, .containsKey⟩)
      | .containsKey =>
        (b, some ⟨pkt, if (b.arpTable.lookup T).isSome then .get else .flood⟩)
      | .get => (b, (b.arpTable.lookup T).map fun mac => ⟨pkt, .reply mac⟩)
      | .reply mac =>
        ({ b with arriving := b.arriving ++ [(L.point h, L.proxied h T mac)] }, none)
      | .flood =>
        ({ b with
          arriving := b.arriving ++
            (L.edgePoints.filter (· ≠ L.point h)).map fun p => (p, L.request h T) }, none) := by
  cases p with
  | flood =>
    simp only [operate, Lan.request, LanState.emit, filterMap_arrives_unparsed, ne_eq,
      services.compareTo_eq_zero]
  | putIfAbsent => rfl
  | containsKey => rfl
  | get => rfl
  | reply mac =>
    have hreply := services.buildArpReply_eq T mac (L.request h T) (L.requestArp h T) rfl
    exact congrArg (fun eth => ({ b with arriving := b.arriving ++ [(L.point h, eth)] }, none))
      hreply

theorem whole_perm (hk : ⟨pkt, p⟩ ∈ s.calls) :
    (whole s).packetIns.Perm (pkt :: (s.shared.packetIns ++
      (s.calls.erase ⟨pkt, p⟩).filterMap fun k => some k.packet)) := by
  have hperm := s.carried_perm (fun k => some k.packet) hk
  exact (hperm.append_left _).trans List.perm_middle

theorem mem_whole (hk : ⟨pkt, p⟩ ∈ s.calls) : pkt ∈ (whole s).packetIns :=
  (whole_perm hk).mem_iff.mpr List.mem_cons_self

/-- A call that goes on takes its packet along. -/
theorem packetIns_proceed (hk : ⟨pkt, p⟩ ∈ s.calls) (b : LanState H)
    (hb : b.packetIns = s.shared.packetIns) :
    (whole ⟨b, ⟨pkt, p'⟩ :: s.calls.erase ⟨pkt, p⟩⟩).packetIns.Perm (whole s).packetIns := by
  refine List.Perm.trans ?_ (whole_perm hk).symm
  rw [whole, hb]
  exact List.perm_middle

/-- A call that ends has dealt with its packet. -/
theorem packetIns_return (hk : ⟨pkt, p⟩ ∈ s.calls) (b : LanState H)
    (hb : b.packetIns = s.shared.packetIns) :
    (whole ⟨b, s.calls.erase ⟨pkt, p⟩⟩).packetIns.Perm ((whole s).packetIns.erase pkt) := by
  have herase := (whole_perm hk).erase pkt
  rw [List.erase_cons_head] at herase
  rw [whole, hb]
  exact herase.symm

/-- What the step from `s` to `s'` does, and what the calls may rely on after it. -/
def Step (L : Lan H) (F : H × Ip4Address → Prop) (s s' : LanTraffic H) : Prop :=
  (∃ b, CallEffect L F (whole s) b ∧ Alike (whole s') b) ∧
    ∀ k ∈ s'.calls, k.Sound L F s'.shared.arpTable

/-- An operation that only looks at the table. -/
theorem Answering.look (hs : Answering L F s) (hk : ⟨pkt, p⟩ ∈ s.calls)
    (hsound : (⟨pkt, p'⟩ : Call).Sound L F s.shared.arpTable) :
    Step L F s ⟨s.shared, ⟨pkt, p'⟩ :: s.calls.erase ⟨pkt, p⟩⟩ := by
  refine ⟨⟨_, .atomic .idle, rfl, packetIns_proceed hk _ rfl, rfl, rfl, rfl⟩, ?_⟩
  refine s.forall_calls (some ⟨pkt, p'⟩) hs.sound (fun _ hk => hk) ?_
  rintro k ⟨⟩
  exact hsound

/-- `arpTable.putIfAbsent(srcIp, srcMac)`, for the request of a host. -/
theorem Answering.learnRequest (hs : Answering L F s)
    (hk : ⟨⟨L.point h, L.request h T⟩, .putIfAbsent⟩ ∈ s.calls) :
    Step L F s ⟨{ s.shared with arpTable := L.learn s.shared.arpTable h },
      ⟨⟨L.point h, L.request h T⟩, .containsKey⟩ ::
        s.calls.erase ⟨⟨L.point h, L.request h T⟩, .putIfAbsent⟩⟩ := by
  refine ⟨⟨_, .early h, rfl, packetIns_proceed hk _ rfl, rfl, rfl, rfl⟩, ?_⟩
  refine s.forall_calls (some ⟨_, .containsKey⟩) hs.sound
    (fun k hk => hk.mono (extends_learn _ h)) ?_
  rintro k ⟨⟩
  exact Or.inr ⟨h, T, rfl, isSome_lookup_learn _ h, trivial⟩

/-- `arpTable.putIfAbsent(srcIp, srcMac)`, for the reply of a host. -/
theorem Answering.learnReply (hs : Answering L F s) {arp : ARP}
    (hk : ⟨⟨L.point h, L.reply h arp⟩, .putIfAbsent⟩ ∈ s.calls) :
    Step L F s ⟨{ s.shared with arpTable := L.learn s.shared.arpTable h },
      s.calls.erase ⟨⟨L.point h, L.reply h arp⟩, .putIfAbsent⟩⟩ := by
  refine ⟨⟨_, .atomic (.learn h arp (mem_whole hk)), rfl, packetIns_return hk _ rfl, rfl, rfl, rfl⟩,
    ?_⟩
  exact s.forall_calls none hs.sound (fun k hk => hk.mono (extends_learn _ h)) (by simp)

/-- A request that is with a call was made. -/
theorem Answering.asked (hs : Answering L F s)
    (hk : ⟨⟨L.point h, L.request h T⟩, p⟩ ∈ s.calls) : (h, T) ∈ s.shared.asked := by
  obtain ⟨h', ⟨T', heq, hasked⟩ | ⟨arp, heq⟩⟩ := hs.truthful.packetIns _ (mem_whole hk)
  · rw [request_eq_iff.mp heq]
    exact hasked
  · exact absurd (InboundPacket.mk.inj heq).2 (request_ne_reply _ _ _ _)

/-- The answer is emitted. -/
theorem Answering.reply (hs : Answering L F s) {mac : MacAddress}
    (hk : ⟨⟨L.point h, L.request h T⟩, .reply mac⟩ ∈ s.calls)
    (hsrc : (s.shared.arpTable.lookup (L.ip h)).isSome)
    (hmac : s.shared.arpTable.lookup T = some mac) :
    Step L F s ⟨{ s.shared with
        arriving := s.shared.arriving ++ [(L.point h, L.proxied h T mac)] },
      s.calls.erase ⟨⟨L.point h, L.request h T⟩, .reply mac⟩⟩ := by
  have hlearn : L.learn (whole s).arpTable h = s.shared.arpTable := learn_of_known hsrc
  refine ⟨⟨_, .atomic (.answer h T mac (mem_whole hk) (hs.asked hk) ?_), ?_⟩, ?_⟩
  · rw [hlearn, hmac]
  · exact ⟨hlearn.symm, packetIns_return hk _ rfl, rfl, rfl, rfl⟩
  · exact s.forall_calls none hs.sound (fun _ hk => hk) (by simp)

/-- The request is sent on to the other edge points. -/
theorem Answering.flood (hs : Answering L F s)
    (hk : ⟨⟨L.point h, L.request h T⟩, .flood⟩ ∈ s.calls)
    (hsrc : (s.shared.arpTable.lookup (L.ip h)).isSome) (hF : F (h, T)) :
    Step L F s ⟨{ s.shared with
        arriving := s.shared.arriving ++
          (L.edgePoints.filter (· ≠ L.point h)).map fun p => (p, L.request h T) },
      s.calls.erase ⟨⟨L.point h, L.request h T⟩, .flood⟩⟩ := by
  have hlearn : L.learn (whole s).arpTable h = s.shared.arpTable := learn_of_known hsrc
  refine ⟨⟨_, .late h T (mem_whole hk) hF, ?_⟩, ?_⟩
  · exact ⟨hlearn.symm, packetIns_return hk _ rfl, rfl, rfl, rfl⟩
  · exact s.forall_calls none hs.sound (fun _ hk => hk) (by simp)

/-- **What an operation of a call does.** -/
theorem Answering.operate (hs : Answering L F s)
    (hF : ∀ h T, s.shared.arpTable.lookup T = none → F (h, T)) {k : Call} (hk : k ∈ s.calls) :
    Step L F s (s.call (operate L services) k) := by
  rw [Threads.call_of_mem hk]
  obtain ⟨pkt, p⟩ := k
  rcases hs.sound _ hk with hp | ⟨h, T, hpkt, hsrc, hsound⟩
  · -- the first operation: nothing is known about the packet yet
    obtain rfl : p = .putIfAbsent := hp
    obtain ⟨h, ⟨T, rfl, -⟩ | ⟨arp, rfl⟩⟩ := hs.truthful.packetIns _ (mem_whole hk)
    · exact hs.learnRequest hk
    · exact hs.learnReply hk
  · obtain rfl : pkt = ⟨L.point h, L.request h T⟩ := hpkt
    rw [operate_request]
    cases p with
    | putIfAbsent => exact hs.learnRequest hk
    | containsKey =>
      by_cases hT : (s.shared.arpTable.lookup T).isSome
      · simp only [if_pos hT]
        exact hs.look hk (Or.inr ⟨h, T, rfl, hsrc, hT⟩)
      · simp only [if_neg hT]
        exact hs.look hk (Or.inr ⟨h, T, rfl, hsrc, hF h T (Option.not_isSome_iff_eq_none.mp hT)⟩)
    | get =>
      -- the entry is still there, so the reply can be built
      obtain ⟨mac, hmac⟩ := Option.isSome_iff_exists.mp hsound
      simp only [hmac]
      exact hs.look hk (Or.inr ⟨h, T, rfl, hsrc, hmac⟩)
    | reply mac => exact hs.reply hk hsrc hsound
    | flood => exact hs.flood hk hsrc hsound

end Operations

/-! ## Every interleaving -/

section Runs

variable {L : Lan H} {services : Services} {F : H × Ip4Address → Prop} {s : LanTraffic H}

/-- What a host makes of a frame does not depend on the rest of the network. -/
theorem exists_hear (L : Lan H) (h : H) (eth : Ethernet) :
    ∃ pkts as, ∀ s, L.hear s h eth =
      { s with packetIns := pkts ++ s.packetIns, answers := s.answers ++ as } := by
  have hnothing : ∀ s : LanState H,
      s = { s with packetIns := [] ++ s.packetIns, answers := s.answers ++ [] } := by simp
  unfold Lan.hear
  split
  · rename_i arp _
    split_ifs
    · exact ⟨[⟨L.point h, L.reply h arp⟩], [], fun s => by simp⟩
    · exact ⟨[], [], hnothing⟩
    · exact ⟨[], [_], fun s => rfl⟩
    · exact ⟨[], [], hnothing⟩
  · exact ⟨[], [], hnothing⟩

variable (services) in
/-- An arrival touches neither the table nor the calls. -/
theorem exists_arrive (L : Lan H) (x : ConnectPoint × Ethernet) :
    ∃ pkts as, ∀ s : LanState H, x ∈ s.arriving → lanNext L services s (.arrive x) =
      { s with
        packetIns := pkts ++ s.packetIns
        arriving := s.arriving.erase x
        answers := s.answers ++ as } := by
  cases hat : L.hostAt x.1 with
  | none => exact ⟨[], [], fun s hx => by simp [lanNext, hx, hat]⟩
  | some h =>
    obtain ⟨pkts, as, hhear⟩ := exists_hear L h x.2
    exact ⟨pkts, as, fun s hx => by simp [lanNext, hx, hat, hhear]⟩

/-- **Every step has one of the effects**, and leaves the calls what they rely on. -/
theorem Answering.effect (hs : Answering L F s)
    (hF : ∀ h T, s.shared.arpTable.lookup T = none → F (h, T)) (e : LanTrafficEvent H) :
    Step L F s (lanTrafficNext L services s e) := by
  have hidle : Step L F s s :=
    ⟨⟨_, .atomic .idle, rfl, List.Perm.refl _, rfl, rfl, rfl⟩, hs.sound⟩
  cases e with
  | call k =>
    by_cases hk : k ∈ s.calls
    · exact hs.operate hF hk
    · rw [lanTrafficNext, Threads.call_of_notMem hk]
      exact hidle
  | lan e =>
    cases e with
    | handle pkt =>
      simp only [lanTrafficNext]
      split_ifs with hpkt
      · -- the packet goes from the network to a call
        refine ⟨⟨_, .atomic .idle, rfl, ?_, rfl, rfl, rfl⟩, ?_⟩
        · refine List.Perm.trans List.perm_middle ?_
          exact ((List.perm_cons_erase hpkt).symm).append_right _
        · intro k hk
          rcases List.mem_cons.mp hk with rfl | hk
          · exact Or.inl rfl
          · exact hs.sound k hk
      · exact hidle
    | ask h T =>
      refine ⟨⟨_, .atomic (hs.truthful.effect services (.ask h T)), ?_⟩, hs.sound⟩
      exact ⟨rfl, List.Perm.refl _, rfl, rfl, rfl⟩
    | arrive x =>
      have heffect := hs.truthful.effect services (.arrive x)
      by_cases hx : x ∈ s.shared.arriving
      · obtain ⟨pkts, as, harrive⟩ := exists_arrive services L x
        rw [harrive (whole s) hx] at heffect
        rw [lanTrafficNext, harrive s.shared hx]
        · refine ⟨⟨_, .atomic heffect, rfl, ?_, rfl, rfl, rfl⟩, hs.sound⟩
          rw [whole, whole, List.append_assoc]
          exact List.Perm.refl _
        · simp
      · rw [lanTrafficNext, lanNext, if_neg hx]
        · exact hidle
        · simp

theorem Answering.next (hs : Answering L F s)
    (hF : ∀ h T, s.shared.arpTable.lookup T = none → F (h, T)) (e : LanTrafficEvent H) :
    Answering L F (lanTrafficNext L services s e) := by
  obtain ⟨⟨b, heffect, halike⟩, hsound⟩ := hs.effect hF e
  exact ⟨halike.truthful (heffect.truthful hs.truthful), halike.sought (heffect.sought hs.sought),
    hsound⟩

theorem answering_init : Answering L F (LanTraffic.init : LanTraffic H) := by
  refine ⟨truthful_init, fun h h' hasked => ?_, ?_⟩
  · simp [whole, LanTraffic.init, LanState.init] at hasked
  · simp [LanTraffic.init]

variable (L services) in
theorem answering_run (es : List (LanTrafficEvent H)) :
    Answering L (fun _ => True) (run (lanTrafficNext L services) LanTraffic.init es) :=
  run_invariant (fun _ e hs => hs.next (fun _ _ _ => trivial) e) answering_init es

end Runs

/-- **Nobody is misled by concurrent calls.** In every interleaving: an entry of the table is the
address of a host with its hardware address, a call that was told that the table has an entry for
its target finds it, and an answer that a host has received is to a request it has made and gives
the hardware address of the host that owns the address. -/
theorem resolution_truthful_concurrently (L : Lan H) (services : Services)
    (es : List (LanTrafficEvent H)) :
    let s := run (lanTrafficNext L services) LanTraffic.init es
    (∀ T mac, s.shared.arpTable.lookup T = some mac → ∃ h, L.ip h = T ∧ L.mac h = mac) ∧
      (∀ k ∈ s.calls, k.point = .get → (operate L services s.shared k).2.isSome) ∧
      ∀ h T mac, (h, T, mac) ∈ s.shared.answers →
        (h, T) ∈ s.shared.asked ∧ ∃ h', L.ip h' = T ∧ L.mac h' = mac := by
  intro s
  have hs : Answering L (fun _ => True) s := answering_run L services es
  refine ⟨hs.truthful.table, fun k hk hp => ?_, fun h T mac ha => hs.truthful.answers _ ha⟩
  obtain ⟨pkt, p⟩ := k
  obtain rfl : p = .get := hp
  rcases hs.sound _ hk with hp | ⟨h, T, hpkt, -, hT⟩
  · cases hp
  · obtain rfl : pkt = ⟨L.point h, L.request h T⟩ := hpkt
    rw [operate_request, Option.isSome_map]
    exact hT

/-- Nothing is in flight, and no call is in progress. -/
def Idle (s : LanTraffic H) : Prop :=
  s.shared.Quiet ∧ s.calls = []

instance (s : LanTraffic H) : Decidable (Idle s) :=
  inferInstanceAs (Decidable (_ ∧ _))

theorem Idle.whole {s : LanTraffic H} (hs : Idle s) : (whole s).Quiet := by
  obtain ⟨⟨hin, harr⟩, hcalls⟩ := hs
  refine ⟨?_, harr⟩
  rw [ProxyArp.whole, hin, Threads.carried, hcalls]
  rfl

/-- **The first request finds the address**, whatever calls are made at the same time: when nothing
is in flight and no call is in progress, the controller knows the hardware address of every host
whose address was ever asked for. -/
theorem sought_known_concurrently (L : Lan H) (services : Services)
    (es : List (LanTrafficEvent H)) (s : LanTraffic H)
    (hs : s = run (lanTrafficNext L services) LanTraffic.init es) (hidle : Idle s) (h h' : H)
    (hasked : (h, L.ip h') ∈ s.shared.asked) :
    s.shared.arpTable.lookup (L.ip h') = some (L.mac h') := by
  subst hs
  have hrun := answering_run L services es
  exact hrun.sought.known hrun.truthful hidle.whole hasked

/-- Both hosts ask for each other at the same time: each call has recorded its sender before the
other asks for it, so both requests are answered at once. -/
def crossedRequests : List (LanTrafficEvent Bool) :=
  let a : InboundPacket := ⟨⟨⟨1⟩, ⟨1⟩⟩, twoHosts.request false ⟨2⟩⟩
  let b : InboundPacket := ⟨⟨⟨1⟩, ⟨2⟩⟩, twoHosts.request true ⟨1⟩⟩
  [.lan (.ask false ⟨2⟩), .lan (.ask true ⟨1⟩), .lan (.handle a), .lan (.handle b),
    .call ⟨a, .putIfAbsent⟩, .call ⟨b, .putIfAbsent⟩, .call ⟨a, .containsKey⟩,
    .call ⟨b, .containsKey⟩, .call ⟨b, .get⟩, .call ⟨a, .get⟩, .call ⟨a, .reply ⟨2⟩⟩,
    .call ⟨b, .reply ⟨1⟩⟩, .lan (.arrive (⟨⟨1⟩, ⟨1⟩⟩, twoHosts.proxied false ⟨2⟩ ⟨2⟩)),
    .lan (.arrive (⟨⟨1⟩, ⟨2⟩⟩, twoHosts.proxied true ⟨1⟩ ⟨1⟩))]

theorem sought_known_concurrently_twoHosts :
    (run (lanTrafficNext twoHosts plainServices) LanTraffic.init
      crossedRequests).shared.arpTable.lookup ⟨2⟩ = some ⟨2⟩ :=
  sought_known_concurrently twoHosts plainServices crossedRequests _ rfl (by decide) false true
    (by decide)

/-! ## Every later request is answered -/

section Load

variable [DecidableEq H] {L : Lan H} {services : Services} {h : H} {T : Ip4Address}
  {mac : MacAddress}

theorem Alike.load_eq {s s' : LanState H} (ha : Alike s s') :
    load L h T mac s = load L h T mac s' := by
  rw [load, load, ha.packetIns.count_eq, ha.arriving, ha.answers]

/-- **No answer is lost or duplicated**: once the address is known, and unless a call sends the
request on, the load of a host grows by one with each of its requests, and by nothing else. -/
theorem CallEffect.load_eq {s s' : LanState H} (he : CallEffect L (· ≠ (h, T)) s s')
    (hT : s.arpTable.lookup T = some mac) :
    load L h T mac s' + s.asked.count (h, T) = load L h T mac s + s'.asked.count (h, T) := by
  cases he with
  | atomic he => exact he.load_eq hT
  | early h₁ => rfl
  | late h₁ T₁ hmem hne => exact congrArg (· + _) (load_flood hmem _ hne)

variable (services) in
/-- The load after a run, by the requests made in it. -/
theorem Answering.load_run {s : LanTraffic H} (hs : Answering L (· ≠ (h, T)) s)
    (hT : s.shared.arpTable.lookup T = some mac) (es : List (LanTrafficEvent H)) :
    load L h T mac (whole (run (lanTrafficNext L services) s es)) + s.shared.asked.count (h, T) =
      load L h T mac (whole s) +
        (run (lanTrafficNext L services) s es).shared.asked.count (h, T) := by
  suffices hrun : Answering L (· ≠ (h, T)) (run (lanTrafficNext L services) s es) ∧
      (run (lanTrafficNext L services) s es).shared.arpTable.lookup T = some mac ∧
      load L h T mac (whole (run (lanTrafficNext L services) s es)) + s.shared.asked.count (h, T) =
        load L h T mac (whole s) +
          (run (lanTrafficNext L services) s es).shared.asked.count (h, T) from hrun.2.2
  induction es using List.reverseRecOn with
  | nil => exact ⟨hs, hT, rfl⟩
  | append_singleton es e ih =>
    obtain ⟨hs', hT', hload⟩ := ih
    rw [run_snoc]
    generalize run (lanTrafficNext L services) s es = s' at hs' hT' hload ⊢
    -- a call that asks now is told that the address is there
    have hF : ∀ h' T', s'.shared.arpTable.lookup T' = none → (h', T') ≠ (h, T) := by
      rintro h' T' hnone heq
      rw [(Prod.mk.inj heq).2, hT'] at hnone
      cases hnone
    obtain ⟨⟨b, heffect, halike⟩, -⟩ := hs'.effect hF e
    refine ⟨hs'.next hF e, ?_, ?_⟩
    · have hknown := heffect.known hT'
      rw [← halike.arpTable] at hknown
      exact hknown
    · have hstep := heffect.load_eq (h := h) hT'
      rw [← halike.load_eq, ← halike.asked] at hstep
      have hasked : (whole s').asked = s'.shared.asked := rfl
      have hasked' : (whole (lanTrafficNext L services s' e)).asked =
        (lanTrafficNext L services s' e).shared.asked := rfl
      rw [hasked, hasked'] at hstep
      omega

end Load

/-- **Every later request is answered exactly once**, whatever calls are made at the same time. Let
nothing be in flight and no call be in progress, and let the address of `h'` have been asked for. In
every later state of that kind, the number of answers that a host has received for the address, with
the hardware address of `h'`, has grown by the number of its requests for it. -/
theorem requests_answered_once_concurrently [DecidableEq H] (L : Lan H) (services : Services)
    (es es' : List (LanTrafficEvent H)) (s s' : LanTraffic H)
    (hs : s = run (lanTrafficNext L services) LanTraffic.init es)
    (hs' : s' = run (lanTrafficNext L services) s es') (hidle : Idle s) (hidle' : Idle s')
    (h₀ h h' : H) (hasked : (h₀, L.ip h') ∈ s.shared.asked) :
    s'.shared.answers.count (h, L.ip h', L.mac h') + s.shared.asked.count (h, L.ip h') =
      s.shared.answers.count (h, L.ip h', L.mac h') + s'.shared.asked.count (h, L.ip h') := by
  have hrun : Answering L (fun _ => True) s := by
    rw [hs]
    exact answering_run L services es
  have hknown : s.shared.arpTable.lookup (L.ip h') = some (L.mac h') :=
    hrun.sought.known hrun.truthful hidle.whole hasked
  -- no call is in progress, so none is about to send a request on
  have hstart : Answering L (· ≠ (h, L.ip h')) s := by
    refine ⟨hrun.truthful, hrun.sought, fun k hk => ?_⟩
    rw [hidle.2] at hk
    simp at hk
  have hload : ∀ {t : LanTraffic H}, Idle t →
      load L h (L.ip h') (L.mac h') (whole t) =
        t.shared.answers.count (h, L.ip h', L.mac h') := by
    intro t ht
    obtain ⟨hin, harr⟩ := ht.whole
    rw [load, hin, harr, List.count_nil, List.count_nil, Nat.zero_add]
    rfl
  have hgrows := hstart.load_run services hknown es'
  rw [← hs', hload hidle, hload hidle'] at hgrows
  exact hgrows

/-- After the two requests that crossed, the next request of the first host is answered. -/
theorem requests_answered_once_concurrently_twoHosts :
    let a : InboundPacket := ⟨⟨⟨1⟩, ⟨1⟩⟩, twoHosts.request false ⟨2⟩⟩
    (run (lanTrafficNext twoHosts plainServices)
      (run (lanTrafficNext twoHosts plainServices) LanTraffic.init crossedRequests)
      [.lan (.ask false ⟨2⟩), .lan (.handle a), .call ⟨a, .putIfAbsent⟩, .call ⟨a, .containsKey⟩,
        .call ⟨a, .get⟩, .call ⟨a, .reply ⟨2⟩⟩,
        .lan (.arrive (⟨⟨1⟩, ⟨1⟩⟩, twoHosts.proxied false ⟨2⟩ ⟨2⟩))]).shared.answers.count
          (false, ⟨2⟩, ⟨2⟩) = 2 := by
  intro a
  have honce := requests_answered_once_concurrently twoHosts plainServices crossedRequests
    [.lan (.ask false ⟨2⟩), .lan (.handle a), .call ⟨a, .putIfAbsent⟩, .call ⟨a, .containsKey⟩,
      .call ⟨a, .get⟩, .call ⟨a, .reply ⟨2⟩⟩,
      .lan (.arrive (⟨⟨1⟩, ⟨1⟩⟩, twoHosts.proxied false ⟨2⟩ ⟨2⟩))] _ _ rfl rfl (by decide)
    (by decide) false false true (by decide)
  exact Nat.add_right_cancel (honce.trans (by decide : _ = 2 + 1))

/-! ## Undisturbed calls -/

section Undisturbed

variable {L : Lan H} {services : Services}

variable (L services) in
/-- **A call that runs alone** does what `process` does. -/
theorem exists_run_call (b : LanState H) (pkt : InboundPacket) :
    ∃ es, run (lanTrafficNext L services) ⟨b, [⟨pkt, .putIfAbsent⟩]⟩ es =
      ⟨{ b with
          arpTable := (process services b.arpTable (L.context pkt)).1
          arriving := b.arriving ++
            (process services b.arpTable (L.context pkt)).2.filterMap OutboundPacket.arrives },
        []⟩ := by
  have hhandled : (L.context pkt).isHandled = false := rfl
  cases hp : pkt.parsed.payload with
  | arp arp =>
    have harp : (L.context pkt).arp? = some arp := PacketContext.arp?_eq_some.mpr ⟨hhandled, hp⟩
    rw [process_of_arp?_eq_some b.arpTable harp]
    by_cases hreq : arp.opCode = ARP.OP_REQUEST
    · cases hl : (b.arpTable.putIfAbsent arp.senderProtocolAddress pkt.parsed.sourceMAC).lookup
          arp.targetProtocolAddress with
      | some mac =>
        refine ⟨[.call ⟨pkt, .putIfAbsent⟩, .call ⟨pkt, .containsKey⟩, .call ⟨pkt, .get⟩,
          .call ⟨pkt, .reply mac⟩], ?_⟩
        simp [lanTrafficNext, Threads.call_only, operate, hp, hreq, hl, Lan.context, LanState.emit,
          services.buildArpReply_eq _ _ _ arp hp]
      | none =>
        refine ⟨[.call ⟨pkt, .putIfAbsent⟩, .call ⟨pkt, .containsKey⟩, .call ⟨pkt, .flood⟩], ?_⟩
        have hothers : L.edgePoints.filter (services.compareTo · pkt.receivedFrom ≠ 0) =
            L.edgePoints.filter (· ≠ pkt.receivedFrom) :=
          List.filter_congr fun p _ => by simp [services.compareTo_eq_zero]
        simp only [run_cons, run_nil, lanTrafficNext, Threads.call_only, operate, hp, hreq, if_true,
          Option.toList_some, Option.toList_none, hl, Option.isSome_none, Bool.false_eq_true,
          if_false, hothers, LanState.emit, Lan.context]
        rfl
    · refine ⟨[.call ⟨pkt, .putIfAbsent⟩], ?_⟩
      simp [lanTrafficNext, Threads.call_only, operate, hp, hreq, Lan.context]
  | ipv4 _ =>
    refine ⟨[.call ⟨pkt, .putIfAbsent⟩], ?_⟩
    simp [lanTrafficNext, Threads.call_only, operate, process, hp, Lan.context]
  | other _ =>
    refine ⟨[.call ⟨pkt, .putIfAbsent⟩], ?_⟩
    simp [lanTrafficNext, Threads.call_only, operate, process, hp, Lan.context]

/-- A step of the network with atomic calls is a sequence of steps here. -/
theorem exists_run_lanNext (b : LanState H) (e : LanEvent H) :
    ∃ es, run (lanTrafficNext L services) ⟨b, []⟩ es = ⟨lanNext L services b e, []⟩ := by
  cases e with
  | ask h T => exact ⟨[.lan (.ask h T)], rfl⟩
  | arrive x => exact ⟨[.lan (.arrive x)], rfl⟩
  | handle pkt =>
    by_cases hpkt : pkt ∈ b.packetIns
    · obtain ⟨es, hes⟩ :=
        exists_run_call L services { b with packetIns := b.packetIns.erase pkt } pkt
      refine ⟨.lan (.handle pkt) :: es, ?_⟩
      rw [run_cons, lanTrafficNext, if_pos hpkt, hes, lanNext, if_pos hpkt]
    · refine ⟨[], ?_⟩
      rw [run_nil, lanNext, if_neg hpkt]

end Undisturbed

/-- **Atomic calls are one way to interleave.** Every run of the network in which `process` is one
step is a run here, in which every call finishes before the next operation of another, and ends in
the same state with no call in progress. -/
theorem atomic_lan_runs_are_interleavings (L : Lan H) (services : Services)
    (es : List (LanEvent H)) :
    ∃ es', run (lanTrafficNext L services) LanTraffic.init es' =
      ⟨run (lanNext L services) LanState.init es, []⟩ := by
  induction es using List.reverseRecOn with
  | nil => exact ⟨[], rfl⟩
  | append_singleton es e ih =>
    obtain ⟨es', hes'⟩ := ih
    obtain ⟨es'', hes''⟩ := exists_run_lanNext (run (lanNext L services) LanState.init es) e
    refine ⟨es' ++ es'', ?_⟩
    rw [run_append, hes', hes'', run_snoc]

end ProxyArp
