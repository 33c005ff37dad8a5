import OnosApps.Runs.Threads
import OnosApps.UnicastDhcp.Exchange

/-!
# Unicast DHCP under concurrent calls

The packet processor is called for several packets at a time, and the calls share the record of
clients and the location of the server. A call asks whether its client is recorded, and only then
records it, so two calls for the first packets of one client can both find it missing, and both
submit its intents. A call also reads the location of the server twice, once for each direction.

This module bounds the damage. A second pair of intents takes a second call that asks while another
has been told that the client is missing and has not recorded it yet, and no intent leads back to a
client without one that leads to the server. As long as the configuration and the clients stay
put, the surplus intents are copies.

## Main definitions

* `CallPoint`, `operate`: the operations of `process`, one by one
* `Traffic`, `TrafficEvent`, `trafficNext`: the application with calls in progress
* `Operates`: what an operation does
* `Overlaps m`: a call finds `m` missing while another one is about to record it

## Main results

* `operates`: every operation does one of these things
* `duplicates_le_overlaps`: every surplus intent takes an overlap
* `duplicates_are_copies`: the surplus intents are copies
* `atomic_dhcp_runs_are_interleavings`: calls that run alone
-/

namespace UnicastDhcp

open Onos Runs

/-! ## Calls in progress -/

/-- The operation that a call of `process` makes next, with the locations of the server that it
has read. -/
inductive CallPoint where
  | getEtherType
  | containsKey
  | readPort
  | putIfAbsent
  | readEgress
  | submit (egressPoint : ConnectPoint)
  | readIngress (egressPoint : ConnectPoint)
  | submit2 (egressPoint ingressPoint2 : ConnectPoint)
  | send (egressPoint : ConnectPoint)
deriving DecidableEq, Repr

/-- A call of `process`: the packet-in it is about, and how far it has come. -/
structure Call where
  packet : InboundPacket
  point : CallPoint
deriving DecidableEq

/-- The client that the call is for. -/
def Call.srcMac (k : Call) : MacAddress :=
  k.packet.parsed.sourceMAC

/-- What the calls share: the application, and the packets that were sent on with the ports they
were sent to. -/
structure Shared where
  state : State
  sent : List (InboundPacket × PortNumber)

section Steps

variable (services : Services)

/-- Building and submitting an intent, after which the call is at `point` unless the builder has
thrown. -/
def Shared.submit (s : Shared) (intent : PointToPointIntent) (k : Call) (point : CallPoint) :
    Shared × Option Call :=
  match buildAndSubmit services intent s.state with
  | .ok _ t => ({ s with state := t }, some { k with point := point })
  | .error _ t => ({ s with state := t }, none)

/-- One operation of `process`: what is shared after it, and the call at its next point, unless it
has returned or thrown. -/
def operate (s : Shared) (k : Call) : Shared × Option Call :=
  let pkt := k.packet
  match k.point with
  | .getEtherType =>
    (s, if pkt.parsed.getEtherType ≠ Ethernet.TYPE_IPV4 then none
      else some { k with point := .containsKey })
  | .containsKey =>
    (s, some { k with
      point := if k.srcMac ∈ s.state.macToCp then .readPort else .putIfAbsent })
  -- the location of the server is null until it is configured: the call throws
  | .readPort => (s, s.state.serverLocation.map fun server => { k with point := .send server })
  | .putIfAbsent =>
    ({ s with state := { s.state with
        macToCp := s.state.macToCp.putIfAbsent k.srcMac pkt.receivedFrom } },
      some { k with point := .readEgress })
  | .readEgress =>
    (s, s.state.serverLocation.map fun egressPoint => { k with point := .submit egressPoint })
  | .submit egressPoint =>
    s.submit services (connection services (clientSelector k.srcMac) pkt.receivedFrom egressPoint)
      k (.readIngress egressPoint)
  -- the field is read again for the way back
  | .readIngress egressPoint =>
    (s, s.state.serverLocation.map fun ingressPoint2 =>
      { k with point := .submit2 egressPoint ingressPoint2 })
  | .submit2 egressPoint ingressPoint2 =>
    s.submit services
      (connection services (serverSelector k.srcMac) ingressPoint2 pkt.receivedFrom)
      k (.send egressPoint)
  | .send egressPoint => ({ s with sent := s.sent ++ [(pkt, egressPoint.port)] }, none)

/-- The application with calls in progress. -/
abbrev Traffic := Threads Shared Call

def Traffic.init : Traffic := ⟨⟨State.init, []⟩, []⟩

inductive TrafficEvent where
  | event (e : Event)
  /-- A call makes its next operation. -/
  | call (k : Call)

/-- One step: a configuration event is handled, a packet-in becomes a call, or a call makes its
next operation. -/
def trafficNext (s : Traffic) : TrafficEvent → Traffic
  | .event (.config e) =>
    { s with shared := { s.shared with
        state := finalState (DhcpConfigListener.event services e) s.shared.state } }
  | .event (.packetIn pkt) => { s with calls := ⟨pkt, .getEtherType⟩ :: s.calls }
  | .call k => s.call (operate services) k

end Steps

/-! ## What an operation does -/

/-- The intents that a call will still submit. -/
inductive Owes where
  | nothing
  | both
  | back
deriving DecidableEq

namespace CallPoint

def owes : CallPoint → Owes
  | .getEtherType | .containsKey | .readPort | .send _ => .nothing
  | .putIfAbsent | .readEgress | .submit _ => .both
  | .readIngress _ | .submit2 _ _ => .back

/-- The locations of the server that a call holds. -/
def servers : CallPoint → List ConnectPoint
  | .getEtherType | .containsKey | .readPort | .putIfAbsent | .readEgress => []
  | .submit e | .readIngress e | .send e => [e]
  | .submit2 e i => [e, i]

end CallPoint

/-- The next operation of the call finds `m` missing. -/
def Call.Enters (m : MacAddress) (s : State) (k : Call) : Prop :=
  k.point = .containsKey ∧ k.srcMac = m ∧ m ∉ s.macToCp

instance (m : MacAddress) (s : State) (k : Call) : Decidable (k.Enters m s) :=
  inferInstanceAs (Decidable (_ ∧ _))

/-- What an operation does to the application, and where it takes the call. -/
inductive Operates (services : Services) (s : State) (k : Call) : State → Option Call → Prop where
  /-- A call looks something up and goes on. -/
  | look {p : CallPoint} (howes : p.owes = k.point.owes) (hpoint : k.point ≠ .putIfAbsent)
      (hknown : k.point = .containsKey → k.srcMac ∈ s.macToCp) (hnext : p ≠ .getEtherType)
      (hip : k.point = .getEtherType → k.packet.parsed.getEtherType = Ethernet.TYPE_IPV4)
      (hservers : ∀ c ∈ p.servers, c ∈ k.point.servers ∨ s.serverLocation = some c) :
    Operates services s k s (some { k with point := p })
  /-- A call finds its client missing. -/
  | enter (hentry : k.Enters k.srcMac s) :
    Operates services s k s (some { k with point := .putIfAbsent })
  /-- A call records its client. -/
  | record (hpoint : k.point = .putIfAbsent) :
    Operates services s k
      { s with macToCp := s.macToCp.putIfAbsent k.srcMac k.packet.receivedFrom }
      (some { k with point := .readEgress })
  /-- A call submits the intent to the server. -/
  | there {server : ConnectPoint} (hpoint : k.point = .submit server) :
    Operates services s k
      { s with submitted :=
          s.submitted ++ [toServer services k.srcMac k.packet.receivedFrom server] }
      (some { k with point := .readIngress server })
  /-- A call submits the intent to its client. -/
  | back {server server' : ConnectPoint} (hpoint : k.point = .submit2 server server') :
    Operates services s k
      { s with submitted :=
          s.submitted ++ [toClient services k.srcMac k.packet.receivedFrom server'] }
      (some { k with point := .send server })
  /-- A call returns or throws. -/
  | leave (hask : k.point ≠ .containsKey) (hpoint : k.point ≠ .putIfAbsent) :
    Operates services s k s none

section Operation

variable {services : Services} {s : Shared} {k : Call}

theorem submit_cases (services : Services) (s : Shared) (intent : PointToPointIntent) (k : Call)
    (p : CallPoint) :
    s.submit services intent k p =
        ({ s with state := { s.state with submitted := s.state.submitted ++ [intent] } },
          some { k with point := p }) ∨
      s.submit services intent k p = (s, none) := by
  unfold Shared.submit buildAndSubmit
  by_cases hc :
      services.checks.pointToPoint intent.filteredIngressPoint intent.filteredEgressPoint
  · left
    simp [hc]
  · right
    simp [hc]

variable (services s k)

/-- **Every operation does one of these things.** -/
theorem operates :
    Operates services s.state k (operate services s k).1.state (operate services s k).2 := by
  obtain ⟨pkt, p⟩ := k
  cases p with
  | getEtherType =>
    simp only [operate]
    split_ifs with hip
    · exact .leave (by simp) (by simp)
    · exact .look rfl (by simp) (by simp) (by simp) (fun _ => not_not.mp hip)
        (by simp [CallPoint.servers])
  | containsKey =>
    simp only [operate]
    split_ifs with hmem
    · exact .look rfl (by simp) (fun _ => hmem) (by simp) (by simp) (by simp [CallPoint.servers])
    · exact .enter ⟨rfl, rfl, hmem⟩
  | putIfAbsent => exact .record rfl
  | readPort | readEgress | readIngress =>
    simp only [operate]
    cases hserver : s.state.serverLocation with
    | none => exact .leave (by simp) (by simp)
    | some server =>
      exact .look rfl (by simp) (by simp) (by simp) (by simp) (by simp [CallPoint.servers, hserver])
  | submit server =>
    simp only [operate]
    rcases submit_cases services s (connection services (clientSelector _) _ _) _ _ with h | h <;>
      rw [h]
    · exact .there rfl
    · exact .leave (by simp) (by simp)
  | submit2 server server' =>
    simp only [operate]
    rcases submit_cases services s (connection services (serverSelector _) _ _) _ _ with h | h <;>
      rw [h]
    · exact .back rfl
    · exact .leave (by simp) (by simp)
  | send server => exact .leave (by simp) (by simp)

/-- Only the last operation of a call sends its packet. -/
theorem sent_operate :
    (operate services s k).1.sent = s.sent ∨
      ∃ server ∈ k.point.servers,
        (operate services s k).1.sent = s.sent ++ [(k.packet, server.port)] := by
  obtain ⟨pkt, p⟩ := k
  cases p with
  | submit server =>
    left
    simp only [operate]
    rcases submit_cases services s (connection services (clientSelector _) _ _) _ _ with h | h <;>
      rw [h]
  | submit2 server server' =>
    left
    simp only [operate]
    rcases submit_cases services s (connection services (serverSelector _) _ _) _ _ with h | h <;>
      rw [h]
  | send server => exact .inr ⟨server, List.mem_singleton_self _, rfl⟩
  | _ => exact .inl rfl

end Operation

/-! ## Counting the intents of a client -/

section Count

variable (m : MacAddress)

/-- The call is for `m` and will still submit `o`. -/
def Call.Owing (o : Owes) (k : Call) : Bool :=
  k.point.owes = o ∧ k.srcMac = m

/-- The number of calls for `m` that will still submit `o`. -/
def owing (o : Owes) (s : Traffic) : ℕ :=
  s.calls.countP (Call.Owing m o)

/-- Some call has found `m` missing and is about to record it. -/
def Recording (s : Traffic) : Prop :=
  ∃ k ∈ s.calls, k.point = .putIfAbsent ∧ k.srcMac = m

instance (s : Traffic) : Decidable (Recording m s) :=
  inferInstanceAs (Decidable (∃ k ∈ s.calls, _))

/-- A call finds `m` missing while another one is about to record it. -/
def Overlaps (s : Traffic) : TrafficEvent → Prop
  | .event _ => False
  | .call k => k ∈ s.calls ∧ k.Enters m s.shared.state ∧ Recording m s

instance (s : Traffic) : DecidablePred (Overlaps m s)
  | .event _ => .isFalse id
  | .call _ => inferInstanceAs (Decidable (_ ∧ _))

/-- Some call has found `m` missing. -/
def Entered (s : Traffic) : Prop :=
  m ∈ s.shared.state.macToCp ∨ Recording m s

/-- The intents for `m`, submitted and owed, after `n` overlaps: none but those of the overlaps
before a first call has found `m` missing, and one more in each direction from then on. -/
structure Counted (s : Traffic) (n : ℕ) : Prop where
  there : clientToServer s.shared.state m + owing m .both s ≤ n + 1
  first : ¬ Entered m s → clientToServer s.shared.state m + owing m .both s ≤ n
  back : serverToClient s.shared.state m + owing m .back s ≤ clientToServer s.shared.state m

end Count

section Step

variable {services : Services} {s : Traffic} {t : State} {k : Call} {after : Option Call}
  {m : MacAddress} {n : ℕ} {sent : List (InboundPacket × PortNumber)}

/-- The calls that owe something after an operation, by those before it. -/
theorem owing_call (x : Shared) (after : Option Call) (o : Owes) (m : MacAddress)
    (hk : k ∈ s.calls) :
    owing m o ⟨x, after.toList ++ s.calls.erase k⟩ + [k].countP (Call.Owing m o) =
      owing m o s + after.toList.countP (Call.Owing m o) := by
  have hcalls := Threads.countP_calls (Call.Owing m o) hk
  rw [owing, owing, List.countP_append, hcalls, List.countP_singleton]
  omega

/-- A client that was found missing is recorded, or about to be. -/
theorem Operates.entered (ho : Operates services s.shared.state k t after) (hs : Entered m s) :
    Entered m ⟨⟨t, sent⟩, after.toList ++ s.calls.erase k⟩ := by
  rcases hs with hm | ⟨k', hk', hpoint', hsrc'⟩
  · left
    cases ho with
    | record _ => exact ConcurrentMap.mem_putIfAbsent.mpr (.inr hm)
    | look | enter | there | back | leave => exact hm
  · by_cases hne : k' = k
    · -- the call that was about to record the client records it
      subst hne
      left
      cases ho with
      | record _ => exact ConcurrentMap.mem_putIfAbsent.mpr (.inl hsrc'.symm)
      | look _ hpoint _ _ _ _ => exact absurd hpoint' hpoint
      | leave _ hpoint => exact absurd hpoint' hpoint
      | enter hentry => exact absurd (hpoint'.symm.trans hentry.1) (by simp)
      | there hpoint => exact absurd (hpoint'.symm.trans hpoint) (by simp)
      | back hpoint => exact absurd (hpoint'.symm.trans hpoint) (by simp)
    · right
      exact ⟨k', List.mem_append_right _ ((List.mem_erase_of_ne hne).mpr hk'), hpoint', hsrc'⟩

/-- The operation that finds a client missing. -/
theorem Operates.of_enters {x : State} (ho : Operates services x k t after)
    (hentry : k.Enters m x) :
    t = x ∧ after = some { k with point := .putIfAbsent } := by
  obtain ⟨hask, hsrc, hmissing⟩ := hentry
  cases ho with
  | enter => exact ⟨rfl, rfl⟩
  | look _ _ hknown _ _ _ => exact absurd (hsrc ▸ hknown hask) hmissing
  | leave hpoint _ => exact absurd hask hpoint
  | record hpoint => exact absurd (hask.symm.trans hpoint) (by simp)
  | there hpoint => exact absurd (hask.symm.trans hpoint) (by simp)
  | back hpoint => exact absurd (hask.symm.trans hpoint) (by simp)

theorem clientToServer_append (x : State) (i : PointToPointIntent) (m : MacAddress) :
    clientToServer { x with submitted := x.submitted ++ [i] } m =
      clientToServer x m + if i.selector = clientSelector m then 1 else 0 := by
  simp [clientToServer, List.countP_append, List.countP_singleton]

theorem serverToClient_append (x : State) (i : PointToPointIntent) (m : MacAddress) :
    serverToClient { x with submitted := x.submitted ++ [i] } m =
      serverToClient x m + if i.selector = serverSelector m then 1 else 0 := by
  simp [serverToClient, List.countP_append, List.countP_singleton]

/-- **An operation that is no entry adds nothing** to the intents of a client, submitted and owed:
it turns what is owed into what is submitted, or drops it; and an intent to the client comes after
one to the server. -/
theorem Operates.submits {x : State} (ho : Operates services x k t after) (m : MacAddress)
    (hentry : ¬ k.Enters m x) :
    clientToServer t m + after.toList.countP (Call.Owing m .both) ≤
        clientToServer x m + [k].countP (Call.Owing m .both) ∧
      serverToClient t m + after.toList.countP (Call.Owing m .back) + clientToServer x m ≤
        serverToClient x m + [k].countP (Call.Owing m .back) + clientToServer t m := by
  have hne := clientSelector_ne_serverSelector
  cases ho with
  | @look p howes _ _ _ _ _ =>
    have hsame : ∀ o, Call.Owing m o { k with point := p } = Call.Owing m o k := fun o =>
      decide_eq_decide.mpr (and_congr_left' (by rw [howes]))
    simp [List.countP_singleton, hsame]
  | enter hself =>
    have hm : k.packet.parsed.sourceMAC ≠ m := by
      rintro rfl
      exact hentry hself
    simp [Call.Owing, Call.srcMac, hm]
  | record hpoint =>
    simp [Call.Owing, Call.srcMac, hpoint, CallPoint.owes, clientToServer, serverToClient]
  | there hpoint =>
    rw [clientToServer_append, serverToClient_append]
    simp [Call.Owing, Call.srcMac, hpoint, CallPoint.owes, toServer, connection, hne,
      clientSelector_injective.eq_iff, Nat.add_assoc, Nat.add_comm, Nat.add_left_comm]
  | back hpoint =>
    rw [clientToServer_append, serverToClient_append]
    simp [Call.Owing, Call.srcMac, hpoint, CallPoint.owes, toClient, connection, (hne _ _).symm,
      serverSelector_injective.eq_iff]
  | leave _ => simp

/-- One operation, with the overlaps counted so far. -/
theorem Counted.operate (hs : Counted m s n) (hk : k ∈ s.calls)
    (ho : Operates services s.shared.state k t after) :
    Counted m ⟨⟨t, sent⟩, after.toList ++ s.calls.erase k⟩
      (n + if Overlaps m s (.call k) then 1 else 0) := by
  have hboth := owing_call ⟨t, sent⟩ after .both m hk
  have hback := owing_call ⟨t, sent⟩ after .back m hk
  have hthere := hs.there
  have hafter := hs.back
  by_cases hentry : k.Enters m s.shared.state
  · obtain ⟨rfl, rfl⟩ := ho.of_enters hentry
    have hrec : Recording m ⟨⟨s.shared.state, sent⟩,
        (some { k with point := .putIfAbsent }).toList ++ s.calls.erase k⟩ :=
      ⟨_, List.mem_cons_self, rfl, hentry.2.1⟩
    -- this call owes both intents from now on
    have hone : (some { k with point := .putIfAbsent }).toList.countP (Call.Owing m .both) ≤ 1 :=
      List.countP_le_length
    have hnone : (some { k with point := .putIfAbsent }).toList.countP
        (Call.Owing m .back) = 0 := by
      simp [Call.Owing, CallPoint.owes]
    refine ⟨?_, fun h => absurd (.inr hrec) h, ?_⟩
    · show clientToServer s.shared.state m + _ ≤ _
      by_cases hother : Recording m s
      · rw [if_pos ⟨hk, hentry, hother⟩]
        omega
      · have hfirst := hs.first (not_or.mpr ⟨hentry.2.2, hother⟩)
        omega
    · show serverToClient s.shared.state m + _ ≤ clientToServer s.shared.state m
      omega
  · obtain ⟨hsubmits, hsubmits'⟩ := ho.submits m hentry
    refine ⟨?_, fun hnone => ?_, ?_⟩
    · show clientToServer t m + _ ≤ _
      omega
    · have hfirst := hs.first fun h => hnone (ho.entered h)
      show clientToServer t m + _ ≤ _
      omega
    · show serverToClient t m + _ ≤ clientToServer t m
      omega

variable (services) in
/-- One step, with the overlaps counted so far. -/
theorem Counted.next (hs : Counted m s n) (e : TrafficEvent) :
    Counted m (trafficNext services s e) (n + if Overlaps m s e then 1 else 0) := by
  cases e with
  | event e =>
    cases e with
    | config e =>
      obtain ⟨location, hnext⟩ := finalState_event services s.shared.state e
      rw [trafficNext, hnext]
      exact ⟨hs.there, hs.first, hs.back⟩
    | packetIn pkt =>
      -- a call that has just begun owes nothing, and records nobody
      have howing : ∀ o, o ≠ .nothing →
          owing m o (trafficNext services s (.event (.packetIn pkt))) = owing m o s := by
        intro o ho
        simp [owing, trafficNext, Call.Owing, CallPoint.owes, ho.symm]
      have hentered : Entered m s →
          Entered m (trafficNext services s (.event (.packetIn pkt))) :=
        Or.imp_right fun ⟨k, hk, hrec⟩ => ⟨k, List.mem_cons_of_mem _ hk, hrec⟩
      refine ⟨?_, fun hnone => ?_, ?_⟩
      · rw [howing .both (by simp)]
        exact hs.there
      · rw [howing .both (by simp)]
        exact hs.first fun h => hnone (hentered h)
      · rw [howing .back (by simp)]
        exact hs.back
  | call k =>
    by_cases hk : k ∈ s.calls
    · rw [trafficNext, Threads.call_of_mem hk]
      exact hs.operate hk (operates services s.shared k)
    · rw [trafficNext, Threads.call_of_notMem hk, if_neg fun h => hk h.1]
      exact hs

theorem counted_init (m : MacAddress) : Counted m Traffic.init 0 :=
  ⟨Nat.zero_le _, fun _ => Nat.le_refl _, Nat.le_refl _⟩

end Step

/-- **Every surplus intent takes an overlap.** In every interleaving, and for every client, there
are at most as many intents to the client as intents to the server, and of these at most one more
than the number of times a call found the client missing while another one was about to record
it. -/
theorem duplicates_le_overlaps (services : Services) (es : List TrafficEvent) (m : MacAddress) :
    let s := (run (trafficNext services) Traffic.init es).shared.state
    serverToClient s m ≤ clientToServer s m ∧
      clientToServer s m ≤
        countSteps (trafficNext services) (Overlaps m) Traffic.init es + 1 := by
  intro s
  have hs := run_count_invariant (fun _ e _ hs => hs.next services e)
    (counted_init m) es
  exact ⟨Nat.le_of_add_right_le hs.back, Nat.le_of_add_right_le hs.there⟩

/-- Two calls for packets of one client, which make their operations in turn. -/
def racingCalls : List TrafficEvent :=
  let pkt := discover ⟨0xeae978fbfd01⟩ ⟨⟨1⟩, ⟨1⟩⟩
  let server : ConnectPoint := ⟨⟨3⟩, ⟨2⟩⟩
  let points : List CallPoint := [.getEtherType, .containsKey, .putIfAbsent, .readEgress,
    .submit server, .readIngress server, .submit2 server server, .send server]
  .event (.config ⟨.CONFIG_ADDED, true, some ⟨some "of:0000000000000003/2"⟩⟩) ::
    .event (.packetIn pkt) :: .event (.packetIn pkt) ::
    points.flatMap fun p => [.call ⟨pkt, p⟩, .call ⟨pkt, p⟩]

-- the bound is attained
example :
    let s := (run (trafficNext deployed) Traffic.init racingCalls).shared.state
    clientToServer s ⟨0xeae978fbfd01⟩ = 2 ∧ serverToClient s ⟨0xeae978fbfd01⟩ = 2 ∧
      countSteps (trafficNext deployed) (Overlaps ⟨0xeae978fbfd01⟩) Traffic.init racingCalls = 1 :=
  by decide

/-! ## Where the intents lead -/

/-- Configurations name `server`, and the IPv4 packets of a client come in at its home. -/
def StaysHome (services : Services) (server : ConnectPoint) (home : MacAddress → ConnectPoint) :
    TrafficEvent → Prop
  | .event e => ∀ m, StaysAt services server m (home m) e
  | .call _ => True

/-- The intents connect the recorded clients with the server, and these are recorded at home. -/
structure Placed (services : Services) (server : ConnectPoint) (home : MacAddress → ConnectPoint)
    (x : State) : Prop extends ConnectsOnly services server x where
  recorded : ∀ m, ∀ c ∈ x.macToCp.lookup m, c = home m

/-- The call is for a client at home, it holds the location of the server, and it has recorded the
client before it submits anything. -/
structure Call.Placed (server : ConnectPoint) (home : MacAddress → ConnectPoint) (x : State)
    (k : Call) : Prop where
  -- before the type of the packet is known, it need not be of a client
  home : (k.point = .getEtherType → k.packet.parsed.getEtherType = Ethernet.TYPE_IPV4) →
    k.packet.receivedFrom = home k.srcMac
  servers : ∀ c ∈ k.point.servers, c = server
  recorded : k.point ≠ .putIfAbsent → k.point.owes ≠ .nothing → k.srcMac ∈ x.macToCp

/-- The application, its calls and the packets that were sent. -/
structure PlacedTraffic (services : Services) (server : ConnectPoint)
    (home : MacAddress → ConnectPoint) (s : Traffic) : Prop where
  state : Placed services server home s.shared.state
  calls : ∀ k ∈ s.calls, k.Placed server home s.shared.state
  sent : ∀ x ∈ s.shared.sent, x.2 = server.port

section Places

variable {services : Services} {server : ConnectPoint} {home : MacAddress → ConnectPoint}
  {x t : State} {k : Call} {after : Option Call}

theorem Call.Placed.mono (hk : k.Placed server home x)
    (hmem : ∀ m, m ∈ x.macToCp → m ∈ t.macToCp) : k.Placed server home t :=
  ⟨hk.home, hk.servers, fun hpoint howes => hmem _ (hk.recorded hpoint howes)⟩

/-- A call that submits an intent has its client recorded where the packet came in. -/
theorem Placed.lookup (hx : Placed services server home x) (hk : k.Placed server home x)
    (howes : k.point.owes ≠ .nothing) (hpoint : k.point ≠ .putIfAbsent)
    (htype : k.point ≠ .getEtherType) :
    x.macToCp.lookup k.srcMac = some k.packet.receivedFrom := by
  obtain ⟨c, hc⟩ := Option.isSome_iff_exists.mp
    (Finmap.lookup_isSome.mpr (hk.recorded hpoint howes))
  rw [hc, hx.recorded _ c hc, hk.home fun h => absurd h htype]

/-- Recording a client at home. -/
theorem Placed.record (hx : Placed services server home x) (m : MacAddress) :
    Placed services server home { x with macToCp := x.macToCp.putIfAbsent m (home m) } := by
  refine ⟨⟨hx.location, fun i hi => ?_⟩, fun m' c hc => ?_⟩
  · -- the clients that are recorded keep their points
    obtain ⟨m', c, hc, hor⟩ := hx.intents i hi
    refine ⟨m', c, ?_, hor⟩
    rw [Option.mem_def] at hc ⊢
    rw [ConcurrentMap.lookup_putIfAbsent]
    split_ifs with hm
    · rw [← hm, hc, Option.getD_some]
    · exact hc
  · rw [Option.mem_def, ConcurrentMap.lookup_putIfAbsent] at hc
    split_ifs at hc with hm
    · cases hl : x.macToCp.lookup m with
      | none => rw [← Option.some.inj hc, hl, hm, Option.getD_none]
      | some c' => rw [← Option.some.inj hc, hl, hm, Option.getD_some, hx.recorded m c' hl]
    · exact hx.recorded m' c hc

/-- Submitting an intent between a recorded client and the server. -/
theorem Placed.submit (hx : Placed services server home x) {m : MacAddress} {c : ConnectPoint}
    (hc : x.macToCp.lookup m = some c) {i : PointToPointIntent}
    (hi : i = toServer services m c server ∨ i = toClient services m c server) :
    Placed services server home { x with submitted := x.submitted ++ [i] } := by
  refine ⟨⟨hx.location, fun i' hi' => ?_⟩, hx.recorded⟩
  rcases List.mem_append.mp hi' with hi' | hi'
  · exact hx.intents i' hi'
  · rw [List.mem_singleton.mp hi']
    exact ⟨m, c, hc, hi⟩

/-- **An operation keeps everything in its place.** -/
theorem Operates.placed (ho : Operates services x k t after) (hx : Placed services server home x)
    (hk : k.Placed server home x) :
    Placed services server home t ∧ (∀ m, m ∈ x.macToCp → m ∈ t.macToCp) ∧
      ∀ k' ∈ after, k'.Placed server home t := by
  cases ho with
  | @look p howes hpoint _ _ hip hservers =>
    refine ⟨hx, fun _ => id, ?_⟩
    rintro _ ⟨⟩
    refine ⟨fun _ => hk.home hip, fun c hc => ?_, fun _ hp => hk.recorded hpoint (howes ▸ hp)⟩
    rcases hservers c hc with hc | hc
    · exact hk.servers c hc
    · exact hx.location c hc
  | enter hentry =>
    refine ⟨hx, fun _ => id, ?_⟩
    rintro _ ⟨⟩
    refine ⟨fun _ => hk.home (by simp [hentry.1]), by simp [CallPoint.servers], fun h => ?_⟩
    exact absurd rfl h
  | record hpoint =>
    have hhome : k.packet.receivedFrom = home k.srcMac := hk.home (by simp [hpoint])
    rw [hhome]
    refine ⟨hx.record k.srcMac, fun m hm => ConcurrentMap.mem_putIfAbsent.mpr (.inr hm), ?_⟩
    rintro _ ⟨⟩
    exact ⟨fun _ => hhome, by simp [CallPoint.servers],
      fun _ _ => ConcurrentMap.mem_putIfAbsent.mpr (.inl rfl)⟩
  | @there server' hpoint =>
    have hlookup := hx.lookup hk (by simp [hpoint, CallPoint.owes]) (by simp [hpoint])
      (by simp [hpoint])
    obtain rfl : server' = server := hk.servers server' (by simp [hpoint, CallPoint.servers])
    refine ⟨hx.submit hlookup (.inl rfl), fun _ => id, ?_⟩
    rintro _ ⟨⟩
    refine ⟨fun _ => hk.home (by simp [hpoint]), by simp [CallPoint.servers], fun _ _ => ?_⟩
    exact hk.recorded (by simp [hpoint]) (by simp [hpoint, CallPoint.owes])
  | @back server' server'' hpoint =>
    have hlookup := hx.lookup hk (by simp [hpoint, CallPoint.owes]) (by simp [hpoint])
      (by simp [hpoint])
    obtain rfl : server' = server := hk.servers server' (by simp [hpoint, CallPoint.servers])
    obtain rfl : server'' = server' := hk.servers server'' (by simp [hpoint, CallPoint.servers])
    refine ⟨hx.submit hlookup (.inr rfl), fun _ => id, ?_⟩
    rintro _ ⟨⟩
    exact ⟨fun _ => hk.home (by simp [hpoint]), by simp [CallPoint.servers],
      fun _ h => absurd rfl h⟩
  | leave =>
    refine ⟨hx, fun _ => id, ?_⟩
    rintro _ ⟨⟩

variable {s : Traffic}

theorem placedTraffic_init : PlacedTraffic services server home Traffic.init :=
  ⟨⟨connectsOnly_init, fun _ _ h => by simp [Traffic.init, State.init] at h⟩,
    by simp [Traffic.init], by simp [Traffic.init]⟩

/-- One step keeps everything in its place. -/
theorem PlacedTraffic.next (hs : PlacedTraffic services server home s) {e : TrafficEvent}
    (he : StaysHome services server home e) :
    PlacedTraffic services server home (trafficNext services s e) := by
  cases e with
  | event e =>
    cases e with
    | config e =>
      have hconnects := hs.state.toConnectsOnly.next (he ⟨0⟩).1
      obtain ⟨location, hnext⟩ := finalState_event services s.shared.state e
      rw [UnicastDhcp.next, hnext] at hconnects
      rw [trafficNext, hnext]
      exact ⟨⟨hconnects, hs.state.recorded⟩, fun k hk => (hs.calls k hk).mono fun _ => id, hs.sent⟩
    | packetIn pkt =>
      refine ⟨hs.state, fun k hk => ?_, hs.sent⟩
      rcases List.mem_cons.mp hk with rfl | hk
      · refine ⟨fun hip => ?_, by simp [CallPoint.servers], fun _ h => absurd rfl h⟩
        exact Option.some.inj ((he _).2 ⟨hip rfl, rfl⟩)
      · exact hs.calls k hk
  | call k =>
    by_cases hk : k ∈ s.calls
    · obtain ⟨hstate, hmem, hnext⟩ :=
        (operates services s.shared k).placed hs.state (hs.calls k hk)
      rw [trafficNext, Threads.call_of_mem hk]
      refine ⟨hstate, ?_, ?_⟩
      · exact Threads.forall_calls _ hs.calls (fun k' hk' => hk'.mono hmem) hnext
      · rcases sent_operate services s.shared k with hsent | ⟨c, hc, hsent⟩ <;> rw [hsent]
        · exact hs.sent
        · intro y hy
          rcases List.mem_append.mp hy with hy | hy
          · exact hs.sent y hy
          · rw [List.mem_singleton.mp hy, (hs.calls k hk).servers c hc]
    · rw [trafficNext, Threads.call_of_notMem hk]
      exact hs

end Places

/-- Intents for the same packets, which connect recorded clients with one server, are equal. -/
theorem ConnectsOnly.eq_of_selector_eq {services : Services} {server : ConnectPoint} {x : State}
    (hx : ConnectsOnly services server x) {i i' : PointToPointIntent} (hi : i ∈ x.submitted)
    (hi' : i' ∈ x.submitted) (hsel : i.selector = i'.selector) : i = i' := by
  obtain ⟨m, c, hc, hor⟩ := hx.intents i hi
  obtain ⟨m', c', hc', hor'⟩ := hx.intents i' hi'
  rcases hor with rfl | rfl <;> rcases hor' with rfl | rfl
  · obtain rfl := clientSelector_injective hsel
    rw [Option.some.inj (hc.symm.trans hc')]
  · exact absurd hsel (clientSelector_ne_serverSelector m m')
  · exact absurd hsel.symm (clientSelector_ne_serverSelector m' m)
  · obtain rfl := serverSelector_injective hsel
    rw [Option.some.inj (hc.symm.trans hc')]

/-- **The surplus intents are copies.** Let all configurations name one location of the server,
and let the IPv4 packets of each client come in at one point. In every interleaving, every
submitted intent connects a client, at the point recorded for it, with the server; intents with
the same selector are equal; and every packet that was sent on was sent to the port of the
server. -/
theorem duplicates_are_copies (services : Services) (server : ConnectPoint)
    (home : MacAddress → ConnectPoint) (es : List TrafficEvent)
    (hes : ∀ e ∈ es, StaysHome services server home e) :
    let s := (run (trafficNext services) Traffic.init es).shared
    ConnectsOnly services server s.state ∧
      (∀ i ∈ s.state.submitted, ∀ i' ∈ s.state.submitted, i.selector = i'.selector → i = i') ∧
      ∀ x ∈ s.sent, x.2 = server.port := by
  intro s
  have hs : PlacedTraffic services server home (run (trafficNext services) Traffic.init es) :=
    (along_of_forall hes).run_invariant (fun _ _ hs he => hs.next he) placedTraffic_init
  have hconnects : ConnectsOnly services server s.state := hs.state.toConnectsOnly
  exact ⟨hconnects, fun i hi i' hi' => hconnects.eq_of_selector_eq hi hi', hs.sent⟩

/-- The two calls of one client that race submit each intent twice. -/
theorem duplicates_are_copies_racing :
    let s := (run (trafficNext deployed) Traffic.init racingCalls).shared
    s.state.submitted.length = 4 ∧
      ∀ i ∈ s.state.submitted, ∀ i' ∈ s.state.submitted, i.selector = i'.selector → i = i' := by
  refine ⟨by decide, (duplicates_are_copies deployed ⟨⟨3⟩, ⟨2⟩⟩ (fun _ => ⟨⟨1⟩, ⟨1⟩⟩) racingCalls
    fun e he => ?_).2.1⟩
  cases e with
  | call => trivial
  | event e =>
    simp only [racingCalls, List.mem_cons, TrafficEvent.event.injEq, List.mem_flatMap,
      List.not_mem_nil, or_false, reduceCtorEq, and_false, exists_false] at he
    rcases he with rfl | rfl | rfl <;> intro m
    · refine ⟨?_, fun h => h.elim⟩
      rintro _ ⟨⟩ _ ⟨⟩
      rfl
    · exact ⟨trivial, fun _ => rfl⟩
    · exact ⟨trivial, fun _ => rfl⟩

/-! ## Undisturbed calls -/

section Undisturbed

variable (services : Services)

/-- What `process` sends on. -/
def sentBy (x : State) : Event → List (InboundPacket × PortNumber)
  | .config _ => []
  | .packetIn pkt =>
    match process services pkt x with
    | .ok (some port) _ => [(pkt, port)]
    | _ => []

/-- **A call that runs alone** does what `process` does. -/
theorem exists_run_call (x : State) (sent : List (InboundPacket × PortNumber))
    (pkt : InboundPacket) :
    ∃ es, run (trafficNext services) ⟨⟨x, sent⟩, [⟨pkt, .getEtherType⟩]⟩ es =
      ⟨⟨next services x (.packetIn pkt), sent ++ sentBy services x (.packetIn pkt)⟩, []⟩ := by
  by_cases hip : pkt.parsed.getEtherType = Ethernet.TYPE_IPV4
  · cases hserver : x.serverLocation with
    | none =>
      by_cases hmem : pkt.parsed.sourceMAC ∈ x.macToCp
      · refine ⟨[.call ⟨pkt, .getEtherType⟩, .call ⟨pkt, .containsKey⟩, .call ⟨pkt, .readPort⟩], ?_⟩
        simp [trafficNext, Threads.call_only, operate, Call.srcMac, next, sentBy, process,
          finalState, hip, hmem, hserver]
      · refine ⟨[.call ⟨pkt, .getEtherType⟩, .call ⟨pkt, .containsKey⟩, .call ⟨pkt, .putIfAbsent⟩,
          .call ⟨pkt, .readEgress⟩], ?_⟩
        simp [trafficNext, Threads.call_only, operate, Call.srcMac, next, sentBy, process,
          finalState, hip, hmem, hserver]
    | some server =>
      by_cases hmem : pkt.parsed.sourceMAC ∈ x.macToCp
      · refine ⟨[.call ⟨pkt, .getEtherType⟩, .call ⟨pkt, .containsKey⟩, .call ⟨pkt, .readPort⟩,
          .call ⟨pkt, .send server⟩], ?_⟩
        simp [trafficNext, Threads.call_only, operate, Call.srcMac, next, sentBy, process,
          finalState, hip, hmem, hserver]
      · by_cases hc : services.checks.pointToPoint pkt.receivedFrom server
        · have hs := services.checks.pointToPoint_comm hc
          refine ⟨[.call ⟨pkt, .getEtherType⟩, .call ⟨pkt, .containsKey⟩,
            .call ⟨pkt, .putIfAbsent⟩, .call ⟨pkt, .readEgress⟩, .call ⟨pkt, .submit server⟩,
            .call ⟨pkt, .readIngress server⟩, .call ⟨pkt, .submit2 server server⟩,
            .call ⟨pkt, .send server⟩], ?_⟩
          simp [trafficNext, Threads.call_only, operate, Shared.submit, buildAndSubmit, connection,
            Call.srcMac, next, sentBy, process, finalState, hip, hmem, hserver, hc, hs]
        · -- the builder throws
          refine ⟨[.call ⟨pkt, .getEtherType⟩, .call ⟨pkt, .containsKey⟩,
            .call ⟨pkt, .putIfAbsent⟩, .call ⟨pkt, .readEgress⟩, .call ⟨pkt, .submit server⟩], ?_⟩
          simp [trafficNext, Threads.call_only, operate, Shared.submit, buildAndSubmit, connection,
            Call.srcMac, next, sentBy, process, finalState, hip, hmem, hserver, hc]
  · refine ⟨[.call ⟨pkt, .getEtherType⟩], ?_⟩
    simp [trafficNext, Threads.call_only, operate, next, sentBy, process, finalState, hip]

end Undisturbed

/-- **Atomic calls are one way to interleave.** Every run in which `process` is one step is a run
here, in which every call finishes before the next operation of another, and ends in the same
state, with the same packets sent on and no call in progress. -/
theorem atomic_dhcp_runs_are_interleavings (services : Services) (x : State)
    (sent : List (InboundPacket × PortNumber)) (es : List Event) :
    ∃ es', run (trafficNext services) ⟨⟨x, sent⟩, []⟩ es' =
      ⟨⟨run (next services) x es,
        sent ++ (outputs (next services) (sentBy services) x es).flatten⟩, []⟩ := by
  induction es generalizing x sent with
  | nil => exact ⟨[], by simp [outputs]⟩
  | cons e es ih =>
    obtain ⟨es', hes'⟩ := ih (next services x e) (sent ++ sentBy services x e)
    rw [List.append_assoc] at hes'
    cases e with
    | config e =>
      refine ⟨.event (.config e) :: es', ?_⟩
      rw [sentBy, List.append_nil] at hes'
      exact hes'
    | packetIn pkt =>
      obtain ⟨es'', hes''⟩ := exists_run_call services x sent pkt
      refine ⟨.event (.packetIn pkt) :: es'' ++ es', ?_⟩
      rw [List.cons_append, run_cons, run_append, trafficNext, hes'']
      exact hes'

end UnicastDhcp
