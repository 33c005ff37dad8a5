import OnosApps.Bridge.Network

/-!
# A network of learning bridges delivers exactly once

Fix a frame and a host other than its sender that the frame is for: the host that owns the
destination address, or any host if no host owns it. The copies of the frame that have the
host ahead of them, and the receipts of the frame by the host, always number one together: a
switch hands a copy with the host ahead on by exactly one port towards the host, and hands a
copy with the host behind on by none.

## Main definitions

* `pending T B f cs`: the number of copies of `f` among `cs` that have `B` ahead of them
* `IsFor T f B`: the frame `f` is for the host `B`
* `OnceFor`, `Once`: the invariant, for one frame and for all

## Main results

* `pending_forwarded_add_count_delivered`: what a switch makes of a copy, by its output ports
* `OnceFor.netNext`, `once_run`: the invariant holds along every run
* `delivered_exactly_once`: when no copy of a frame is left, it was received exactly once
-/

namespace Bridge

open Onos Runs

variable {H : Type} [DecidableEq H]

open Classical in
/-- The number of copies of `f` that have the host `B` ahead of them. -/
noncomputable def pending (T : Topology H) (B : H) (f : Frame H) (cs : List (Copy H)) : ℕ :=
  cs.countP fun c => c.frame = f ∧ ¬ T.Towards c.cp B

/-- The frame is for the host: the host is not its sender, and owns the destination address
or no host does. -/
def IsFor (T : Topology H) (f : Frame H) (B : H) : Prop :=
  B ≠ f.sender ∧ (T.mac B = f.eth.destinationMAC ∨ ∀ h, T.mac h ≠ f.eth.destinationMAC)

section Hop

variable {T : Topology H} {B : H} {f : Frame H} {d : DeviceId}

theorem pending_append (cs cs' : List (Copy H)) :
    pending T B f (cs ++ cs') = pending T B f cs + pending T B f cs' :=
  List.countP_append

open Classical in
theorem pending_cons (c : Copy H) (cs : List (Copy H)) :
    pending T B f (c :: cs) =
      pending T B f cs + if c.frame = f ∧ ¬ T.Towards c.cp B then 1 else 0 := by
  simp [pending, List.countP_cons]

theorem pending_erase_add {c : Copy H} {cs : List (Copy H)} (hc : c ∈ cs) :
    pending T B f cs = pending T B f (c :: cs.erase c) :=
  (List.perm_cons_erase hc).countP_eq _

/-- No copy of `f` is pending among copies of other frames. -/
theorem pending_eq_zero {cs : List (Copy H)} (h : ∀ c ∈ cs, c.frame ≠ f) :
    pending T B f cs = 0 := by
  refine List.countP_eq_zero.mpr fun c hc => ?_
  simp [h c hc]

open Classical in
/-- **One output port**: a copy put out of a port that leads towards `B` becomes a copy that
has `B` ahead, or a receipt by `B`; a copy put out of another port becomes neither. -/
theorem pending_forwarded_add_count_delivered_port (q : PortNumber) :
    pending T B f (forwarded T f d q).toList + (delivered T f d q).toList.count (B, f) =
      if T.Towards ⟨d, q⟩ B then 1 else 0 := by
  unfold forwarded delivered
  cases ha : T.attached ⟨d, q⟩ with
  | none =>
    -- a port that is not connected leads nowhere
    have hn : ¬ T.Towards ⟨d, q⟩ B := fun ht => by simpa [ha] using ht.attached
    simp [pending, hn]
  | some a =>
    cases a with
    | link cp =>
      -- the copy at the other end has `B` ahead exactly when this end leads towards `B`
      simp only [Option.toList_some, Option.toList_none, List.count_nil, Nat.add_zero,
        pending_cons, Topology.towards_link_iff ha, true_and, not_not]
      simp [pending]
    | host h =>
      rw [Topology.towards_host_iff ha]
      by_cases hB : B = h
      · simp [pending, hB]
      · simp [pending, hB, Ne.symm hB]

open Classical in
theorem pending_forwarded_add_count_delivered (qs : List PortNumber) :
    pending T B f (qs.filterMap (forwarded T f d)) +
        (qs.filterMap (delivered T f d)).count (B, f) =
      qs.countP fun q => T.Towards ⟨d, q⟩ B := by
  induction qs with
  | nil => rfl
  | cons q qs ih =>
    have hq := pending_forwarded_add_count_delivered_port (T := T) (B := B) (f := f) (d := d) q
    have hcons : ∀ {α : Type} (g : PortNumber → Option α),
        (q :: qs).filterMap g = (g q).toList ++ qs.filterMap g := by
      intro α g
      cases hg : g q <;> simp [hg]
    rw [hcons, hcons, pending_append, List.count_append, List.countP_cons]
    simp only [decide_eq_true_eq]
    omega

omit [DecidableEq H] in
open Classical in
/-- **The output ports of a copy**: a copy that has `B` ahead leaves by one port towards `B`,
and a copy that has `B` behind by none, whether it is flooded or output towards `B`. -/
theorem countP_outPorts {cp : ConnectPoint} {o : OutPort} (hd : cp.deviceId ∈ T.switches)
    (ho : ∀ q, o = .port q → T.Towards ⟨cp.deviceId, q⟩ B) :
    ((outPorts T cp (some o)).countP fun q => T.Towards ⟨cp.deviceId, q⟩ B) =
      if T.Towards cp B then 0 else 1 := by
  -- one port of the switch leads towards `B`, and everything is about that port
  obtain ⟨q₀, hq₀⟩ := Topology.exists_towards hd B
  have hiff : ∀ q, T.Towards ⟨cp.deviceId, q⟩ B ↔ q = q₀ :=
    fun q => ⟨fun hq => hq.unique hq₀, fun hq => hq ▸ hq₀⟩
  have hcp : T.Towards cp B ↔ cp.port = q₀ := hiff cp.port
  rw [if_congr hcp rfl rfl]
  simp only [hiff]
  cases o with
  | port q =>
    obtain rfl := (hiff q).mp (ho q rfl)
    by_cases hp : cp.port = q
    · simp [outPorts, hp]
    · simp [outPorts, hp, Ne.symm hp]
  | flood =>
    have hmem : q₀ ∈ T.ports cp.deviceId := by
      obtain ⟨a, ha⟩ := Option.isSome_iff_exists.mp hq₀.attached
      exact T.attached_mem _ a ha
    -- a flood goes to every port once, so to that port once, unless it is the ingress
    have hone : ((T.ports cp.deviceId).countP fun q => q = q₀) = 1 := by
      rw [← List.count_eq_one_of_mem (T.ports_nodup _) hmem]
      exact List.countP_congr fun q _ => by simp
    simp only [outPorts, List.countP_filter]
    by_cases hp : cp.port = q₀
    · rw [if_pos hp]
      refine List.countP_eq_zero.mpr fun q _ => ?_
      simp [hp]
    · rw [if_neg hp, ← hone]
      refine List.countP_congr fun q _ => ?_
      simp only [Bool.and_eq_true, decide_eq_true_eq, ne_eq]
      constructor
      · exact fun h => h.1
      · rintro rfl
        exact ⟨rfl, Ne.symm hp⟩

end Hop

/-! ## The invariant -/

/-- Frames are numbered in the order of their injection, and every copy and receipt is of an
injected frame. -/
structure Numbered (s : Net H) : Prop where
  ids : ∀ f ∈ s.injected, f.id < s.injected.length
  copies : ∀ c ∈ s.inFlight, c.frame ∈ s.injected
  receipts : ∀ x ∈ s.received, x.2 ∈ s.injected

/-- For every host that `f` is for, the copies of `f` that have the host ahead and the receipts by
the host number one together. -/
def OnceFor (T : Topology H) (f : Frame H) (s : Net H) : Prop :=
  f ∈ s.injected → ∀ B, IsFor T f B → pending T B f s.inFlight + s.received.count (B, f) = 1

/-- The same for every frame. -/
def Once (T : Topology H) (s : Net H) : Prop :=
  ∀ f ∈ s.injected, ∀ B, IsFor T f B →
    pending T B f s.inFlight + s.received.count (B, f) = 1

section Invariant

variable {T : Topology H} {service : RuleService} {appId : ApplicationId} {s : Net H}

omit [DecidableEq H] in
theorem forwarded_frame {f : Frame H} {d : DeviceId} {q : PortNumber} {c : Copy H}
    (h : forwarded T f d q = some c) : c.frame = f := by
  unfold forwarded at h
  split at h
  · rw [← Option.some.inj h]
  · simp at h

omit [DecidableEq H] in
theorem delivered_frame {f : Frame H} {d : DeviceId} {q : PortNumber} {x : H × Frame H}
    (h : delivered T f d q = some x) : x.2 = f := by
  unfold delivered at h
  split at h
  · rw [← Option.some.inj h]
  · simp at h

theorem Numbered.netNext (hs : Numbered s) (e : NetEvent H) :
    Numbered (netNext T service appId s e) := by
  cases e with
  | expire r => exact ⟨hs.ids, hs.copies, hs.receipts⟩
  | inject h eth =>
    simp only [Bridge.netNext]
    split_ifs with hok
    · refine ⟨fun f hf => ?_, fun c hc => ?_, fun x hx => ?_⟩
      · rw [List.length_append, List.length_singleton]
        rcases List.mem_append.mp hf with hf | hf
        · exact Nat.lt_succ_of_lt (hs.ids f hf)
        · rw [List.mem_singleton.mp hf]
          exact Nat.lt_succ_self _
      · rcases List.mem_cons.mp hc with rfl | hc
        · simp
        · exact List.mem_append_left _ (hs.copies c hc)
      · exact List.mem_append_left _ (hs.receipts x hx)
    · exact hs
  | hop c =>
    simp only [Bridge.netNext]
    split_ifs with hmem
    · refine ⟨hs.ids, fun c' hc' => ?_, fun x hx => ?_⟩
      · rcases List.mem_append.mp hc' with hc' | hc'
        · exact hs.copies c' (List.mem_of_mem_erase hc')
        · obtain ⟨q, -, hf⟩ := List.mem_filterMap.mp hc'
          rw [forwarded_frame hf]
          exact hs.copies c hmem
      · rcases List.mem_append.mp hx with hx | hx
        · exact hs.receipts x hx
        · obtain ⟨q, -, hf⟩ := List.mem_filterMap.mp hx
          rw [delivered_frame hf]
          exact hs.copies c hmem
    · exact hs

/-- An injection adds one copy, which has every other host ahead, and leaves the count of the
earlier frames alone. -/
theorem OnceFor.inject {f : Frame H} (hs : OnceFor T f s) (hn : Numbered s) (h : H)
    (eth : Ethernet) : OnceFor T f (Bridge.netNext T service appId s (.inject h eth)) := by
  simp only [Bridge.netNext]
  split_ifs with hok
  · intro hf B hB
    by_cases hold : f ∈ s.injected
    · -- the new frame has another number
      have hne : (⟨s.injected.length, h, eth⟩ : Frame H) ≠ f := by
        rintro rfl
        exact absurd (hn.ids _ hold) (Nat.lt_irrefl _)
      simpa [pending_cons, hne] using hs hold B hB
    · obtain rfl := List.mem_singleton.mp ((List.mem_append.mp hf).resolve_left hold)
      -- the new copy has every host but its sender ahead
      have hahead : ¬ T.Towards (T.hostPort h) B := by
        rw [Topology.towards_host_iff ((T.attached_host _ h).mpr rfl)]
        exact hB.1
      have hpend : pending T B ⟨s.injected.length, h, eth⟩ s.inFlight = 0 :=
        pending_eq_zero fun c hc heq => hold (heq ▸ hn.copies c hc)
      have hcount : s.received.count (B, ⟨s.injected.length, h, eth⟩) = 0 :=
        List.count_eq_zero.mpr fun hx => hold (hn.receipts _ hx)
      simp [pending_cons, hpend, hcount, hahead]
  · exact hs

theorem Once.inject (hs : Once T s) (hn : Numbered s) (h : H) (eth : Ethernet) :
    Once T (Bridge.netNext T service appId s (.inject h eth)) :=
  fun f => OnceFor.inject (hs f) hn h eth

omit [DecidableEq H] in
/-- A copy that is handled is flooded, or output towards the host that owns its
destination. -/
theorem exists_cachedOut (service : RuleService) {c : Copy H} {B : H} (hp : PointsAtHosts T appId s)
    (hc : CopyLeaves T c) (hB : IsFor T c.frame B) :
    ∃ o, cachedOut service appId s.bridge (.frame ⟨c.cp, c.frame.eth⟩) = some o ∧
      ∀ q, o = .port q → T.Towards ⟨c.cp.deviceId, q⟩ B := by
  have hsome : (cachedOut service appId s.bridge (.frame ⟨c.cp, c.frame.eth⟩)).isSome := by
    unfold cachedOut
    cases hr : hit s.bridge ⟨c.cp, c.frame.eth⟩ with
    | some r =>
      obtain ⟨q, -, hq, -⟩ := hp.rules.of_hit hr
      simp [hr, hq]
    | none =>
      simp only [hr]
      rw [(process_reaction service appId _ hc.2.2.2).1]
      rfl
  obtain ⟨o, ho⟩ := Option.isSome_iff_exists.mp hsome
  refine ⟨o, ho, ?_⟩
  rintro q rfl
  obtain ⟨h, hmac, hto⟩ := hp.towards_of_out hc ho
  rcases hB.2 with hown | hnone
  · rwa [T.mac_injective (hown.trans hmac.symm)]
  · exact absurd hmac (hnone h)

/-- A copy makes copies of its own frame only. -/
theorem pending_forwarded_of_ne {c : Copy H} {f : Frame H} {B : H} (hcf : c.frame ≠ f)
    (qs : List PortNumber) :
    pending T B f (qs.filterMap (forwarded T c.frame c.cp.deviceId)) = 0 := by
  refine pending_eq_zero fun c' hc' => ?_
  obtain ⟨q, -, hfwd⟩ := List.mem_filterMap.mp hc'
  rwa [forwarded_frame hfwd]

/-- A copy makes receipts of its own frame only. -/
theorem count_delivered_of_ne {c : Copy H} {f : Frame H} {B : H} (hcf : c.frame ≠ f)
    (qs : List PortNumber) :
    (qs.filterMap (delivered T c.frame c.cp.deviceId)).count (B, f) = 0 := by
  refine List.count_eq_zero.mpr fun hx => ?_
  obtain ⟨q, -, hdel⟩ := List.mem_filterMap.mp hx
  exact hcf (delivered_frame hdel).symm

/-- A hop takes a copy out of flight and puts as many pending copies and receipts in its
place as it counted for. -/
theorem OnceFor.hop {f : Frame H} (hs : OnceFor T f s) (hp : PointsAtHosts T appId s) (c : Copy H) :
    OnceFor T f (Bridge.netNext T service appId s (.hop c)) := by
  simp only [Bridge.netNext]
  split_ifs with hmem
  · intro hf B hB
    have hbefore := hs hf B hB
    rw [pending_erase_add hmem, pending_cons] at hbefore
    rw [pending_append, List.count_append]
    by_cases hcf : c.frame = f
    · subst hcf
      have hc := hp.copies c hmem
      obtain ⟨o, ho, hto⟩ := exists_cachedOut service hp hc hB
      have hports := countP_outPorts hc.2.1 hto
      have hhop := pending_forwarded_add_count_delivered (T := T) (B := B) (f := c.frame)
        (d := c.cp.deviceId) (outPorts T c.cp (some o))
      rw [ho]
      -- the copy counted for one if it had `B` ahead, and for nothing if it had `B` behind
      by_cases ht : T.Towards c.cp B
      · simp only [ht, not_true_eq_false, and_false, if_false, if_true] at hbefore hports
        omega
      · simp only [ht, not_false_eq_true, and_self, if_true, if_false] at hbefore hports
        omega
    · -- a hop of another frame
      rw [pending_forwarded_of_ne hcf, count_delivered_of_ne hcf]
      simp only [hcf, false_and, if_false] at hbefore
      omega
  · exact hs

theorem Once.hop (hs : Once T s) (hp : PointsAtHosts T appId s) (c : Copy H) :
    Once T (Bridge.netNext T service appId s (.hop c)) :=
  fun f => OnceFor.hop (hs f) hp c

/-- The invariant does not depend on the order of the copies. -/
theorem Once.of_perm {s' : Net H} (hs : Once T s) (hi : s'.injected = s.injected)
    (hp : s'.inFlight.Perm s.inFlight) (hr : s'.received = s.received) : Once T s' := by
  intro f hf B hB
  rw [hi] at hf
  rw [hr, pending, hp.countP_eq]
  exact hs f hf B hB

/-- A copy is taken out of flight and put out as some bridge that points at the hosts would put it
out, whatever is behind the output. -/
theorem Once.out {b : State} {c : Copy H} {o : Option OutPort} (hs : Once T s)
    (hp : PointsAtHosts T appId { s with bridge := b }) (hc : c ∈ s.inFlight)
    (ho : cachedOut service appId b (.frame ⟨c.cp, c.frame.eth⟩) = o) :
    Once T { s with
      inFlight := s.inFlight.erase c ++
        (outPorts T c.cp o).filterMap (forwarded T c.frame c.cp.deviceId)
      received := s.received ++
        (outPorts T c.cp o).filterMap (delivered T c.frame c.cp.deviceId) } := by
  have hmem : c ∈ ({ s with bridge := b } : Net H).inFlight := hc
  have hs' : Once T { s with bridge := b } := hs
  have hhop : Once T (Bridge.netNext T service appId { s with bridge := b } (.hop c)) :=
    hs'.hop hp c
  rw [netNext_hop_of_mem hmem, ho] at hhop
  exact hhop

/-- **Every step keeps the count of a frame.** -/
theorem OnceFor.netNext {f : Frame H} (hs : OnceFor T f s) (hp : PointsAtHosts T appId s)
    (hn : Numbered s) (e : NetEvent H) : OnceFor T f (Bridge.netNext T service appId s e) := by
  cases e with
  | inject h eth => exact hs.inject hn h eth
  | hop c => exact hs.hop hp c
  | expire r => exact hs

theorem Once.netNext (hs : Once T s) (hp : PointsAtHosts T appId s) (hn : Numbered s)
    (e : NetEvent H) : Once T (Bridge.netNext T service appId s e) :=
  fun f => OnceFor.netNext (hs f) hp hn e

theorem once_run (es : List (NetEvent H)) :
    Once T (run (Bridge.netNext T service appId) Net.init es) := by
  -- the three invariants go together: the count needs the other two
  have hrun : PointsAtHosts T appId (run (Bridge.netNext T service appId) Net.init es) ∧
      Numbered (run (Bridge.netNext T service appId) Net.init es) ∧
      Once T (run (Bridge.netNext T service appId) Net.init es) := by
    refine run_invariant (P := fun s => PointsAtHosts T appId s ∧ Numbered s ∧ Once T s)
      (fun s e ⟨hp, hn, hs⟩ => ⟨hp.netNext e, hn.netNext e, hs.netNext hp hn e⟩) ?_ es
    exact ⟨pointsAtHosts_init, by constructor <;> simp [Net.init], by simp [Once, Net.init]⟩
  exact hrun.2.2

omit [DecidableEq H] in
/-- A hop delivers no frame to its sender: the port towards the sender is the one the copy
came in on. -/
theorem ne_sender_of_delivered {c : Copy H} {q : PortNumber} {x : H × Frame H}
    (hc : CopyLeaves T c) (hq : q ≠ c.cp.port) (hx : delivered T c.frame c.cp.deviceId q = some x) :
    x.1 ≠ x.2.sender := by
  unfold delivered at hx
  split at hx
  · rename_i h ha
    obtain rfl := Option.some.inj hx
    intro (hs : h = c.frame.sender)
    exact hq (((Topology.towards_host_iff ha).mpr hs.symm).unique hc.1)
  · simp at hx

/-- A step of the network delivers no frame to its sender. -/
theorem ne_sender_netNext (hc : CopiesLeave T s) (hs : ∀ x ∈ s.received, x.1 ≠ x.2.sender)
    (e : NetEvent H) : ∀ x ∈ (netNext T service appId s e).received, x.1 ≠ x.2.sender := by
  cases e with
  | expire r => exact hs
  | inject h eth =>
    simp only [netNext]
    split_ifs <;> exact hs
  | hop c =>
    by_cases hmem : c ∈ s.inFlight
    · intro x hx
      rw [received_hop hmem] at hx
      rcases List.mem_append.mp hx with hx | hx
      · exact hs x hx
      · obtain ⟨q, hq, hdel⟩ := List.mem_filterMap.mp hx
        exact ne_sender_of_delivered (hc c hmem) (ne_of_mem_outPorts hq) hdel
    · rwa [netNext_hop_of_notMem hmem]

end Invariant

/-- **No frame comes back.** In every state that a network of bridges reaches, no host has
received a frame of its own. -/
theorem not_received_by_sender (T : Topology H) (service : RuleService) (appId : ApplicationId)
    (es : List (NetEvent H)) (x : H × Frame H)
    (hx : x ∈ (run (netNext T service appId) Net.init es).received) : x.1 ≠ x.2.sender := by
  have hrun : CopiesLeave T (run (netNext T service appId) Net.init es) ∧
      ∀ x ∈ (run (netNext T service appId) Net.init es).received, x.1 ≠ x.2.sender :=
    run_invariant (P := fun s => CopiesLeave T s ∧ ∀ x ∈ s.received, x.1 ≠ x.2.sender)
      (fun s e ⟨hc, hs⟩ => ⟨hc.netNext e, ne_sender_netNext hc hs e⟩)
      (by simp [CopiesLeave, Net.init]) es
  exact hrun.2 x hx

/-- **Exactly-once delivery.** In every state that a network of bridges reaches, on every
tree of switches and by every sequence of injections, hops and expiries: a frame of which no
copy is in flight was received exactly once by the host that owns its destination address, if
that is another host than its sender; if no host owns the address, it was received exactly
once by every host other than its sender; and its sender has not received it. -/
theorem delivered_exactly_once (T : Topology H) (service : RuleService) (appId : ApplicationId)
    (es : List (NetEvent H)) (s : Net H) (hs : s = run (netNext T service appId) Net.init es)
    (f : Frame H) (hf : f ∈ s.injected) (hdone : ∀ c ∈ s.inFlight, c.frame ≠ f) :
    (∀ B, T.mac B = f.eth.destinationMAC → B ≠ f.sender → s.received.count (B, f) = 1) ∧
      ((∀ h, T.mac h ≠ f.eth.destinationMAC) →
        ∀ B, B ≠ f.sender → s.received.count (B, f) = 1) ∧
      (f.sender, f) ∉ s.received := by
  subst hs
  have honce : ∀ B, IsFor T f B →
      (run (netNext T service appId) Net.init es).received.count (B, f) = 1 := by
    intro B hB
    have hone := once_run (T := T) es f hf B hB
    -- nothing of the frame is in flight, so the receipts are all there is
    rwa [pending_eq_zero hdone, Nat.zero_add] at hone
  refine ⟨?_, ?_, ?_⟩
  · intro B hmac hne
    exact honce B ⟨hne, Or.inl hmac⟩
  · intro hnone B hne
    exact honce B ⟨hne, Or.inr hnone⟩
  · intro hown
    exact not_received_by_sender T service appId es _ hown rfl

/-! ## Two switches -/

/-- The ports of two switches joined by a link, with a host on each. -/
def twoSwitchesAttached (cp : ConnectPoint) : Option (Attachment Bool) :=
  if cp = ⟨⟨1⟩, ⟨1⟩⟩ then some (.host false)
  else if cp = ⟨⟨2⟩, ⟨1⟩⟩ then some (.host true)
  else if cp = ⟨⟨1⟩, ⟨2⟩⟩ then some (.link ⟨⟨2⟩, ⟨2⟩⟩)
  else if cp = ⟨⟨2⟩, ⟨2⟩⟩ then some (.link ⟨⟨1⟩, ⟨2⟩⟩)
  else none

theorem twoSwitchesAttached_link {cp cp' : ConnectPoint}
    (h : twoSwitchesAttached cp = some (.link cp')) :
    cp = ⟨⟨1⟩, ⟨2⟩⟩ ∧ cp' = ⟨⟨2⟩, ⟨2⟩⟩ ∨ cp = ⟨⟨2⟩, ⟨2⟩⟩ ∧ cp' = ⟨⟨1⟩, ⟨2⟩⟩ := by
  unfold twoSwitchesAttached at h
  split_ifs at h with h₁ h₂ h₃ h₄ <;>
    simp only [Option.some.injEq, reduceCtorEq, Attachment.link.injEq] at h
  · exact Or.inl ⟨h₃, h.symm⟩
  · exact Or.inr ⟨h₄, h.symm⟩

theorem linkGraph_twoSwitches :
    linkGraph twoSwitchesAttached = ⊥ ⊔ SimpleGraph.edge (⟨1⟩ : DeviceId) ⟨2⟩ := by
  ext d d'
  rw [bot_sup_eq, SimpleGraph.edge_adj, linkGraph, SimpleGraph.fromRel_adj]
  constructor
  · rintro ⟨hne, ⟨p, p', h⟩ | ⟨p, p', h⟩⟩
    · rcases twoSwitchesAttached_link h with ⟨h, h'⟩ | ⟨h, h'⟩ <;> simp_all
    · rcases twoSwitchesAttached_link h with ⟨h, h'⟩ | ⟨h, h'⟩ <;> simp_all
  · rintro ⟨⟨rfl, rfl⟩ | ⟨rfl, rfl⟩, hne⟩
    · exact ⟨hne, Or.inl ⟨⟨2⟩, ⟨2⟩, by decide⟩⟩
    · exact ⟨hne, Or.inl ⟨⟨2⟩, ⟨2⟩, by decide⟩⟩

/-- Two switches joined by a link, with a host on each. -/
def twoSwitches : Topology Bool where
  switches := {⟨1⟩, ⟨2⟩}
  ports _ := [⟨1⟩, ⟨2⟩]
  attached := twoSwitchesAttached
  hostPort h := if h then ⟨⟨2⟩, ⟨1⟩⟩ else ⟨⟨1⟩, ⟨1⟩⟩
  mac h := if h then ⟨2⟩ else ⟨1⟩
  ports_nodup _ := by decide
  attached_mem cp a h := by
    unfold twoSwitchesAttached at h
    split_ifs at h with h₁ h₂ h₃ h₄ <;> simp_all
  link_symm cp cp' h := by
    rcases twoSwitchesAttached_link h with ⟨rfl, rfl⟩ | ⟨rfl, rfl⟩ <;> decide
  link_mem cp cp' h := by
    rcases twoSwitchesAttached_link h with ⟨rfl, rfl⟩ | ⟨rfl, rfl⟩ <;> decide
  link_simple d p q cp cp' h h' _ := by
    rcases twoSwitchesAttached_link h with ⟨h, -⟩ | ⟨h, -⟩ <;>
      rcases twoSwitchesAttached_link h' with ⟨h', -⟩ | ⟨h', -⟩ <;> simp_all
  link_ne cp cp' h := by
    rcases twoSwitchesAttached_link h with ⟨rfl, rfl⟩ | ⟨rfl, rfl⟩ <;> decide
  attached_host cp h := by
    unfold twoSwitchesAttached
    cases h <;> split_ifs with h₁ h₂ h₃ h₄ <;> simp_all [eq_comm]
  hostPort_mem h := by cases h <;> decide
  mac_injective h h' := by cases h <;> cases h' <;> decide
  acyclic := by
    have hr : ¬ (⊥ : SimpleGraph DeviceId).Reachable ⟨1⟩ ⟨2⟩ := by
      rw [SimpleGraph.reachable_bot]
      decide
    rw [linkGraph_twoSwitches, SimpleGraph.isAcyclic_add_edge_iff_of_not_reachable _ _ hr]
    exact SimpleGraph.isAcyclic_bot
  connected d hd d' hd' := by
    have hadj : (linkGraph twoSwitchesAttached).Adj ⟨1⟩ ⟨2⟩ := by
      rw [linkGraph_twoSwitches, bot_sup_eq, SimpleGraph.edge_adj]
      decide
    simp only [Finset.mem_insert, Finset.mem_singleton] at hd hd'
    rcases hd with rfl | rfl <;> rcases hd' with rfl | rfl
    · exact SimpleGraph.Reachable.refl _
    · exact hadj.reachable
    · exact hadj.symm.reachable
    · exact SimpleGraph.Reachable.refl _

/-- The first frame of a network of two switches: the host on the first switch asks for the
host on the second, and the frame is flooded twice on its way. -/
theorem delivered_exactly_once_twoSwitches :
    let eth : Ethernet := ⟨⟨1⟩, ⟨2⟩, .arp ⟨ARP.OP_REQUEST, ⟨1⟩, ⟨1⟩, ⟨0⟩, ⟨2⟩⟩⟩
    let f : Frame Bool := ⟨0, false, eth⟩
    (run (netNext twoSwitches .flowObjectiveService ⟨"nctu.winlab.bridge"⟩) Net.init
      [.inject false eth, .hop ⟨f, ⟨⟨1⟩, ⟨1⟩⟩⟩, .hop ⟨f, ⟨⟨2⟩, ⟨2⟩⟩⟩]).received.count (true, f) =
        1 := by
  intro eth f
  exact (delivered_exactly_once twoSwitches _ _ _ _ rfl f (by decide) (by decide)).1 true
    (by decide) (by decide)

end Bridge
