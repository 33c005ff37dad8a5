import OnosApps.Bridge.Delivery
import OnosApps.Runs.Count

/-!
# Every frame arrives in a network of learning bridges

A copy in flight has some switches ahead of it. A hop takes the switch it enters off that set
and divides the rest among the copies it puts out, so on a tree of switches every sequence of
hops ends, whatever the tables and the rules hold; and when it has ended, every frame has
arrived.

## Main definitions

* `Net.start b`: the network with arbitrary tables and rules
* `comingTo T d cs`: the number of copies that have the switch `d` ahead
* `Moves`, `Enters d`: the steps that move a copy, and those that take one into `d`
* `Awaits T d f s`: a copy of `f` has the switch `d` ahead

## Main results

* `comingTo_hop`: a hop takes a copy that has its switch ahead, and adds none elsewhere
* `comingTo_add_enters_le`: the invariant, with the number of entries so far
* `countSteps_moves_le`: `n` frames make at most `n` hops for every switch
* `every_frame_arrives`: every sequence of hops ends, and then every frame has arrived
* `Awaits.netNext`: a switch is awaited until the frame enters it or a hop turns away from it
-/

namespace Bridge

open Onos Runs

variable {H : Type}

/-- The network before the first frame, with whatever the tables and the rules hold then. -/
def Net.start (b : State) : Net H := ⟨b, [], [], []⟩

open Classical in
/-- The number of copies that have the switch `d` ahead of them. A copy that is about to enter `d`
counts. -/
noncomputable def comingTo (T : Topology H) (d : DeviceId) (cs : List (Copy H)) : ℕ :=
  cs.countP fun c => ¬ T.Leads c.cp d

/-- The step moves a copy that is in flight. -/
def Moves (s : Net H) : NetEvent H → Prop
  | .hop c => c ∈ s.inFlight
  | _ => False

/-- The step takes a copy into the switch `d`. -/
def Enters (d : DeviceId) (s : Net H) : NetEvent H → Prop
  | .hop c => c ∈ s.inFlight ∧ c.cp.deviceId = d
  | _ => False

instance [DecidableEq H] (s : Net H) : DecidablePred (Moves s)
  | .hop c => inferInstanceAs (Decidable (c ∈ s.inFlight))
  | .inject _ _ => .isFalse id
  | .expire _ => .isFalse id

instance [DecidableEq H] (d : DeviceId) (s : Net H) : DecidablePred (Enters d s)
  | .hop _ => inferInstanceAs (Decidable (_ ∧ _))
  | .inject _ _ => .isFalse id
  | .expire _ => .isFalse id

/-! ## What a hop makes of the copies that come to a switch -/

section Hop

variable {T : Topology H} {d : DeviceId}

theorem comingTo_append (cs cs' : List (Copy H)) :
    comingTo T d (cs ++ cs') = comingTo T d cs + comingTo T d cs' :=
  List.countP_append

open Classical in
theorem comingTo_cons (c : Copy H) (cs : List (Copy H)) :
    comingTo T d (c :: cs) = comingTo T d cs + if ¬ T.Leads c.cp d then 1 else 0 := by
  simp [comingTo, List.countP_cons]

open Classical in
/-- A copy put out of a port has `d` ahead when the port leads to `d`. -/
theorem comingTo_forwarded (hd : d ∈ T.switches) (f : Frame H) (e : DeviceId)
    (qs : List PortNumber) :
    comingTo T d (qs.filterMap (forwarded T f e)) = qs.countP fun q => T.Leads ⟨e, q⟩ d := by
  rw [comingTo, List.countP_filterMap]
  refine List.countP_congr fun q _ => ?_
  unfold forwarded
  cases ha : T.attached ⟨e, q⟩ with
  | none =>
    have hn : ¬ T.Leads ⟨e, q⟩ d := by
      rintro ⟨cp', hl, -⟩
      simp [ha] at hl
    simp [hn]
  | some a =>
    cases a with
    | link cp => simp [Topology.leads_link_iff ha hd]
    | host h => simp [Topology.not_leads_of_host ha]

/-- A copy leaves by each port at most once. -/
theorem outPorts_nodup (cp : ConnectPoint) (o : Option OutPort) : (outPorts T cp o).Nodup := by
  rcases o with - | (- | q)
  · exact List.nodup_nil
  · exact (T.ports_nodup _).filter _
  · simp only [outPorts]
    split_ifs
    · exact List.nodup_nil
    · exact List.nodup_singleton q

open Classical in
/-- **The output ports of a copy**: at most one leads to `d`, and none does if the copy comes
from the direction of `d` or is about to enter `d`. -/
theorem countP_leads_outPorts (cp : ConnectPoint) (o : Option OutPort) :
    ((outPorts T cp o).countP fun q => T.Leads ⟨cp.deviceId, q⟩ d) ≤
      if T.Leads cp d ∨ cp.deviceId = d then 0 else 1 := by
  split_ifs with hno
  · -- the one port that leads to `d` is the ingress, or there is none
    apply Nat.le_of_eq
    rw [List.countP_eq_zero]
    intro q hq hl
    rw [decide_eq_true_eq] at hl
    rcases hno with hcp | rfl
    · exact ne_of_mem_outPorts hq (hl.unique hcp)
    · exact hl.ne rfl
  · by_cases hex : ∃ q₀, T.Leads ⟨cp.deviceId, q₀⟩ d
    · obtain ⟨q₀, hq₀⟩ := hex
      calc ((outPorts T cp o).countP fun q => T.Leads ⟨cp.deviceId, q⟩ d)
          ≤ (outPorts T cp o).count q₀ := by
            apply List.countP_mono_left
            intro q _ hq
            rw [decide_eq_true_eq] at hq
            simpa using hq.unique hq₀
        _ ≤ 1 := List.nodup_iff_count_le_one.mp (outPorts_nodup cp o) q₀
    · rw [not_exists] at hex
      simp [hex]

variable [DecidableEq H]

/-- **A hop towards a switch.** The copies that a hop puts out, and the entry into `d` if the
hop is one, number at most as many as the copy it takes. -/
theorem comingTo_hop (hd : d ∈ T.switches) {cs : List (Copy H)} {c : Copy H} (hc : c ∈ cs)
    (o : Option OutPort) :
    comingTo T d (cs.erase c ++
          (outPorts T c.cp o).filterMap (forwarded T c.frame c.cp.deviceId)) +
        (if c.cp.deviceId = d then 1 else 0) ≤
      comingTo T d cs := by
  classical
  have hbefore : comingTo T d cs = comingTo T d (c :: cs.erase c) :=
    (List.perm_cons_erase hc).countP_eq _
  rw [hbefore, comingTo_append, comingTo_cons, comingTo_forwarded hd, Nat.add_assoc]
  apply Nat.add_le_add_left
  have hports := countP_leads_outPorts (T := T) (d := d) c.cp o
  by_cases he : c.cp.deviceId = d
  · -- the copy enters `d`, and none that it becomes comes back
    have hn : ¬ T.Leads c.cp d := fun hl => hl.ne he
    rw [if_pos (Or.inr he)] at hports
    rw [if_pos he, if_pos hn]
    omega
  · simp only [he, or_false] at hports
    rw [if_neg he, ite_not]
    exact hports

end Hop

/-! ## The invariant -/

section Invariant

variable {T : Topology H} {service : RuleService} {appId : ApplicationId} [DecidableEq H]

/-- **Every step keeps the bound**: the copies that have `d` ahead, and the entries into `d`,
number at most as many as the frames that were injected. -/
theorem comingTo_add_enters_next {d : DeviceId} (hd : d ∈ T.switches) (s : Net H) (e : NetEvent H)
    (n : ℕ) (hs : comingTo T d s.inFlight + n ≤ s.injected.length) :
    comingTo T d (netNext T service appId s e).inFlight + (n + if Enters d s e then 1 else 0) ≤
      (netNext T service appId s e).injected.length := by
  cases e with
  | expire r => simpa [netNext, Enters] using hs
  | inject h eth =>
    have hno : ¬ Enters d s (.inject h eth) := id
    rw [if_neg hno, Nat.add_zero]
    simp only [netNext]
    split_ifs with hok
    · -- the new copy has every switch ahead
      have hn : ¬ T.Leads (T.hostPort h) d :=
        Topology.not_leads_of_host ((T.attached_host _ h).mpr rfl)
      simp only [comingTo_cons, hn, not_false_eq_true, if_true, List.length_append,
        List.length_singleton]
      omega
    · exact hs
  | hop c =>
    by_cases hc : c ∈ s.inFlight
    · have hhop := comingTo_hop hd hc
        (cachedOut service appId s.bridge (.frame ⟨c.cp, c.frame.eth⟩))
      rw [inFlight_hop hc, injected_hop]
      simp only [Enters, hc, true_and]
      omega
    · rw [netNext_hop_of_notMem hc]
      simpa [Enters, hc] using hs

variable (service appId) in
theorem comingTo_add_enters_le {d : DeviceId} (hd : d ∈ T.switches) (b : State)
    (es : List (NetEvent H)) :
    comingTo T d (run (netNext T service appId) (Net.start b) es).inFlight +
        countSteps (netNext T service appId) (Enters d) (Net.start b) es ≤
      (run (netNext T service appId) (Net.start b) es).injected.length :=
  run_count_invariant (P := fun s n => comingTo T d s.inFlight + n ≤ s.injected.length)
    (fun s e n hs => comingTo_add_enters_next hd s e n hs) (Nat.zero_le _) es

omit [DecidableEq H] in
theorem copiesLeave_start (b : State) : CopiesLeave T (Net.start b : Net H) := by
  simp [CopiesLeave, Net.start]

omit [DecidableEq H] in
theorem numbered_start (b : State) : Numbered (Net.start b : Net H) := by
  constructor <;> simp [Net.start]

variable (T service appId) in
theorem numbered_run (b : State) (es : List (NetEvent H)) :
    Numbered (run (netNext T service appId) (Net.start b) es) :=
  run_invariant (P := Numbered) (fun _ e hs => hs.netNext e) (numbered_start b) es

end Invariant

section Loops

variable [DecidableEq H] (T : Topology H) (service : RuleService) (appId : ApplicationId)

/-- There are at most as many hops as injected frames times switches. -/
theorem countSteps_moves_le (b : State) (es : List (NetEvent H)) :
    countSteps (netNext T service appId) Moves (Net.start b) es ≤
      T.switches.card * (run (netNext T service appId) (Net.start b) es).injected.length := by
  -- every hop enters some switch of the tree
  have hsplit : Along (netNext T service appId)
      (fun s e => Moves s e → ∃ d ∈ T.switches, Enters d s e)
      (Net.start b) es := by
    refine along_of_invariant (P := CopiesLeave T) (fun s e hs => hs.netNext e) ?_
      (copiesLeave_start b) es
    intro s e hs hmoves
    cases e with
    | hop c => exact ⟨c.cp.deviceId, (hs c hmoves).2.1, hmoves, rfl⟩
    | inject h eth => exact hmoves.elim
    | expire r => exact hmoves.elim
  calc countSteps (netNext T service appId) Moves (Net.start b) es
      ≤ ∑ d ∈ T.switches, countSteps (netNext T service appId) (Enters d) (Net.start b) es :=
        countSteps_le_sum hsplit
    _ ≤ ∑ _d ∈ T.switches, (run (netNext T service appId) (Net.start b) es).injected.length := by
        refine Finset.sum_le_sum fun d hd => ?_
        have hle := comingTo_add_enters_le service appId hd b es
        omega
    _ = T.switches.card * (run (netNext T service appId) (Net.start b) es).injected.length := by
        rw [Finset.sum_const, smul_eq_mul]

/-- **Every frame arrives.** In every state that a network of bridges reaches from empty tables,
every sequence of hops, each of a copy in flight, is at most as long as the injected frames times
the switches; and when no hop is left, every frame was received exactly once by every host it is
for. -/
theorem every_frame_arrives (es hops : List (NetEvent H)) (s s' : Net H)
    (hs : s = run (netNext T service appId) Net.init es)
    (hs' : s' = run (netNext T service appId) s hops)
    (hhops : Along (netNext T service appId) Moves s hops) :
    hops.length ≤ T.switches.card * s.injected.length ∧
      ((∀ e, ¬ Moves s' e) →
        ∀ f ∈ s.injected, ∀ B, IsFor T f B → s'.received.count (B, f) = 1) := by
  have hrun : s' = run (netNext T service appId) Net.init (es ++ hops) := by
    rw [run_append, ← hs, hs']
  -- the hops inject nothing
  have hinj : s'.injected = s.injected := by
    rw [hs']
    refine hhops.run_invariant (P := fun t => t.injected = s.injected) ?_ rfl
    intro t e ht hmoves
    cases e with
    | hop c => rw [injected_hop, ht]
    | inject h eth => exact hmoves.elim
    | expire r => exact hmoves.elim
  constructor
  · have hle : countSteps (netNext T service appId) Moves Net.init (es ++ hops) ≤
        T.switches.card * (run (netNext T service appId) Net.init (es ++ hops)).injected.length :=
      countSteps_moves_le T service appId State.init (es ++ hops)
    rw [countSteps_append, ← hs, countSteps_eq_length hhops, ← hrun, hinj] at hle
    exact le_of_add_le_right hle
  · intro hdone f hf B hB
    rw [← hinj, hrun] at hf
    have hone := once_run (es ++ hops) f hf B hB
    rw [← hrun, pending_eq_zero fun c hc => absurd hc (hdone (.hop c)), Nat.zero_add] at hone
    exact hone

end Loops

/-- The hosts of two switches have sent one frame each; the copies of the two frames pass each
other on the link, and four hops end the run. -/
theorem every_frame_arrives_twoSwitches :
    let ethF : Ethernet := ⟨⟨1⟩, ⟨2⟩, .arp ⟨ARP.OP_REQUEST, ⟨1⟩, ⟨1⟩, ⟨0⟩, ⟨2⟩⟩⟩
    let ethG : Ethernet := ⟨⟨2⟩, ⟨1⟩, .arp ⟨ARP.OP_REQUEST, ⟨2⟩, ⟨2⟩, ⟨0⟩, ⟨1⟩⟩⟩
    let f : Frame Bool := ⟨0, false, ethF⟩
    let g : Frame Bool := ⟨1, true, ethG⟩
    let s := run (netNext twoSwitches .flowRuleService ⟨"nctu.winlab.bridge"⟩) Net.init
      [.inject false ethF, .inject true ethG]
    let s' := run (netNext twoSwitches .flowRuleService ⟨"nctu.winlab.bridge"⟩) s
      [.hop ⟨f, ⟨⟨1⟩, ⟨1⟩⟩⟩, .hop ⟨g, ⟨⟨2⟩, ⟨1⟩⟩⟩, .hop ⟨f, ⟨⟨2⟩, ⟨2⟩⟩⟩, .hop ⟨g, ⟨⟨1⟩, ⟨2⟩⟩⟩]
    s'.received.count (true, f) = 1 ∧ s'.received.count (false, g) = 1 := by
  intro ethF ethG f g s s'
  have harrives := (every_frame_arrives twoSwitches .flowRuleService ⟨"nctu.winlab.bridge"⟩
    [.inject false ethF, .inject true ethG] _ s s' rfl rfl (by decide)).2
  have hdone : ∀ e, ¬ Moves s' e := by
    have hnil : s'.inFlight = [] := by decide
    intro e hmoves
    cases e with
    | inject h eth => exact hmoves
    | expire r => exact hmoves
    | hop c =>
      rw [Moves, hnil] at hmoves
      simp at hmoves
  exact ⟨harrives hdone f (by decide) true ⟨by decide, Or.inl (by decide)⟩,
    harrives hdone g (by decide) false ⟨by decide, Or.inl (by decide)⟩⟩

/-! ## Switches that a frame has yet to enter -/

/-- A copy of `f` in flight has the switch `d` ahead. -/
def Awaits (T : Topology H) (d : DeviceId) (f : Frame H) (s : Net H) : Prop :=
  ∃ c ∈ s.inFlight, c.frame = f ∧ ¬ T.Leads c.cp d

section Awaits

variable {T : Topology H} {service : RuleService} {appId : ApplicationId} {s : Net H}
  {d : DeviceId} {f : Frame H}

/-- A frame that is not in flight is awaited nowhere. -/
theorem not_awaits (hdone : ∀ c ∈ s.inFlight, c.frame ≠ f) : ¬ Awaits T d f s := by
  rintro ⟨c, hc, hcf, -⟩
  exact hdone c hc hcf

variable [DecidableEq H]

/-- A copy put out of the port that leads to `d` has `d` ahead. -/
theorem awaits_of_mem_outPorts (hd : d ∈ T.switches) {c : Copy H} (hc : c ∈ s.inFlight)
    {q : PortNumber} (hl : T.Leads ⟨c.cp.deviceId, q⟩ d)
    (hq : q ∈ outPorts T c.cp (cachedOut service appId s.bridge (.frame ⟨c.cp, c.frame.eth⟩))) :
    Awaits T d c.frame (netNext T service appId s (.hop c)) := by
  obtain ⟨cp, ha, -⟩ := id hl
  refine ⟨⟨c.frame, cp⟩, ?_, rfl, ?_⟩
  · rw [inFlight_hop hc]
    apply List.mem_append_right
    refine List.mem_filterMap.mpr ⟨q, hq, ?_⟩
    simp only [forwarded, ha]
  · rw [Topology.leads_link_iff ha hd, not_not]
    exact hl

variable (service appId) in
/-- **A switch stays awaited** until a hop of the copy that has it ahead does not put the copy out
of a port that leads to it: because the hop is the entry into the switch, where no port does, or
because the copy turns away. -/
theorem Awaits.netNext (hd : d ∈ T.switches) (ha : Awaits T d f s) (e : NetEvent H) :
    Awaits T d f (netNext T service appId s e) ∨
      ∃ c ∈ s.inFlight, e = .hop c ∧ c.frame = f ∧ ¬ T.Leads c.cp d ∧
        ∀ q ∈ outPorts T c.cp (cachedOut service appId s.bridge (.frame ⟨c.cp, c.frame.eth⟩)),
          ¬ T.Leads ⟨c.cp.deviceId, q⟩ d := by
  obtain ⟨c, hc, hcf, hl⟩ := ha
  cases e with
  | expire r => exact Or.inl ⟨c, hc, hcf, hl⟩
  | inject h eth =>
    refine Or.inl ⟨c, ?_, hcf, hl⟩
    simp only [Bridge.netNext]
    split_ifs
    · exact List.mem_cons_of_mem _ hc
    · exact hc
  | hop c' =>
    by_cases hc' : c' ∈ s.inFlight
    · by_cases hcc : c = c'
      · -- the copy itself is taken
        subst hcc
        by_cases hq : ∀ q ∈ outPorts T c.cp
            (cachedOut service appId s.bridge (.frame ⟨c.cp, c.frame.eth⟩)),
              ¬ T.Leads ⟨c.cp.deviceId, q⟩ d
        · exact Or.inr ⟨c, hc, rfl, hcf, hl, hq⟩
        · push Not at hq
          obtain ⟨q, hq, hlq⟩ := hq
          rw [← hcf]
          exact Or.inl (awaits_of_mem_outPorts hd hc hlq hq)
      · refine Or.inl ⟨c, ?_, hcf, hl⟩
        rw [inFlight_hop hc']
        exact List.mem_append_left _ ((List.mem_erase_of_ne hcc).mpr hc)
    · rw [netNext_hop_of_notMem hc']
      exact Or.inl ⟨c, hc, hcf, hl⟩

/-- A frame that is injected by a step has every switch ahead. -/
theorem awaits_of_injected {e : NetEvent H} (hf : f ∈ (netNext T service appId s e).injected)
    (hold : f ∉ s.injected) (d : DeviceId) : Awaits T d f (netNext T service appId s e) := by
  cases e with
  | expire r => exact absurd hf hold
  | hop c =>
    rw [injected_hop] at hf
    exact absurd hf hold
  | inject h eth =>
    simp only [Bridge.netNext] at hf ⊢
    split_ifs at hf ⊢ with hok
    · obtain rfl := List.mem_singleton.mp ((List.mem_append.mp hf).resolve_left hold)
      exact ⟨_, List.mem_cons_self, rfl,
        Topology.not_leads_of_host ((T.attached_host _ h).mpr rfl)⟩
    · exact absurd hf hold

end Awaits

end Bridge
